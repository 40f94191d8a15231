import Mathlib.Logic.Function.Basic
import Esr.CapInterleaving

/-! # The first user becomes an administrator

A `user_add` that is through asks whether any principal holds `*`, and if none does
appends a grant of `*` to `capabilities.yaml` for the user it has added
(`maybe_grant_admin/2`).  The question is put to the grants table; the file is read,
opened and written afterwards, by as many tasks as there are commands, while the
table is loaded from the file by whoever noticed a change.

`atMostOnce_of_orderly`: one grant at the most is made, to a file that lists no
administrator and that loses nothing, in every run in which a table without an
administrator is believed only while the file has none and nobody else is about to
grant, and in which the file can be read and what is written is read back.
-/
namespace Esr
namespace AutoAdmin
open Yaml Cap Grant

/-- The entry of the new administrator. -/
def newEntry (uuid : String) : Value :=
  .map [(.str "capabilities", .list [.str "*"]), (.str "id", .str uuid),
    (.str "kind", .str "esr_user"),
    (.str "note", .str "auto-admin (first user_add, no prior admin in capabilities.yaml)")]

/-- What `append_admin_grant/2` makes of the document it has read, with `none` where
`principals ++ [new_entry]` raises. -/
def appended (doc : Entries) (uuid : String) : Option Entries :=
  match getOr "principals" (.list []) doc with
  | .list principals => some (put "principals" (.list (principals ++ [newEntry uuid])) doc)
  | _ => none

/-- A grant that was made: the file that was opened for it, and what it was replaced by. -/
structure Made where
  before : Option ByteArray
  after : Option ByteArray

/-- How far a command is.  `checked`: it has found no administrator in the table.
`loaded`: it has read the file, and will write the document.  `opened`: it has opened
the file `before`, which truncated it, and will write the bytes. -/
inductive Phase where
  | waiting
  | checked
  | loaded (new : Entries)
  | opened (before : Option ByteArray) (bytes : ByteArray)
  | written
  | done

/-- The command is between its question and its write. -/
def Phase.InFlight : Phase → Prop
  | .checked | .loaded _ | .opened _ _ => True
  | .waiting | .written | .done => False

/-- The file, the grants table with its owner, the snapshots that have been read off
the file and not been given to the owner yet, the commands, and the grants that were
made. -/
structure State (J : Type) where
  file : Option ByteArray
  loader : Grants.Loader
  pending : List Grants.Table
  phase : J → Phase
  made : List Made

/-- What can happen: a step of a command, a reload, or a step of the table's owner.  A
read can fail although the file is there, and so can a reload. -/
inductive Act (J : Type) where
  | check (j : J)
  | read (j : J) (fails : Bool)
  | openFile (j : J)
  | write (j : J)
  | load (j : J)
  | reload (fails : Bool)
  | apply (i : Nat)
  | owner (a : Grants.LoadAct)

variable {J : Type} [DecidableEq J] (rt : CapRuntime) (uuid : J → String)

/-- A load of the file: its snapshot goes to the owner of the table, later. -/
def withLoaded (s : State J) : State J :=
  match FileLoader.load rt s.file with
  | .ok snapshot => { s with pending := snapshot :: s.pending }
  | .error _ => s

/-- The command goes on. -/
def State.goes (s : State J) (j : J) (next : Phase) : State J :=
  { s with phase := Function.update s.phase j next }

/-- What the table is asked for decides. -/
def asked (table : Grants.Table) : Phase := if Grants.anyAdmin table then .done else .checked

/-- What is read, and where that takes a command. -/
def afterRead (file : Option ByteArray) (fails : Bool) (uuid : String) : Phase :=
  let doc := if fails then [(.str "principals", .list [])] else readOrEmpty rt file
  match appended doc uuid with
  | some new => .loaded new
  | none => .done

/-- Opening the file.  A directory that cannot be made raises, and so does a document
that cannot be encoded; an error that is returned is not looked at. -/
def openedBy (s : State J) (j : J) (new : Entries) : State J :=
  match Cap.write rt (.map new) with
  | .ok bytes => { s.goes j (.opened s.file bytes) with file := some ByteArray.empty }
  | .error .raised => s.goes j .done
  | .error _ => s.goes j (if rt.mkdirFault.isSome then .done else .written)

/-- One step.  `handle_call` of the owner takes a snapshot when it is idle. -/
def step (s : State J) : Act J → Option (State J)
  | .check j =>
      match s.phase j with
      | .waiting => some (s.goes j (asked s.loader.table))
      | _ => none
  | .read j fails =>
      match s.phase j with
      | .checked => some (s.goes j (afterRead rt s.file fails (uuid j)))
      | _ => none
  | .openFile j =>
      match s.phase j with
      | .loaded new => some (openedBy rt s j new)
      | _ => none
  | .write j =>
      match s.phase j with
      | .opened before bytes =>
          let file := CapInterleaving.overlay (some bytes) s.file
          some { s.goes j .written with file := file, made := s.made ++ [⟨before, file⟩] }
      | _ => none
  | .load j =>
      match s.phase j with
      | .written => some (withLoaded rt (s.goes j .done))
      | _ => none
  | .reload fails => some (if fails then s else withLoaded rt s)
  | .apply i =>
      (s.pending[i]?).bind fun snapshot =>
        (s.loader.step (.load snapshot)).map fun loader => { s with loader := loader }
  | .owner a =>
      match a with
      | .load _ => none
      | a => (s.loader.step a).map fun loader => { s with loader := loader }

/-- No command has asked yet, and there is any file and any table. -/
def initial (file : Option ByteArray) (loader : Grants.Loader) : State J where
  file := file
  loader := loader
  pending := []
  phase _ := .waiting
  made := []

/-! ## What is claimed -/

/-- The entry is a map that lists `*`. -/
def holdsStar : Value → Bool
  | .map m =>
      match get "capabilities" m with
      | some (.list caps) => caps.any (Value.isStr "*")
      | _ => false
  | _ => false

/-- The file lists a principal that holds `*`. -/
def ListsAdmin (file : Option ByteArray) : Prop := (principalsOf rt file).any holdsStar = true

/-- There is no file, or it is read as a map. -/
def Legible (file : Option ByteArray) : Prop := file = none ∨ (readMap rt file).isSome

/-- A grant as it should be: to a file without an administrator, which loses none of
its entries. -/
structure Made.Rightful (g : Made) : Prop where
  first : ¬ListsAdmin rt g.before
  legible : Legible rt g.before
  kept : ∀ entry ∈ principalsOf rt g.before, entry ∈ principalsOf rt g.after

/-- At most one grant was made, and it was as it should be. -/
structure AtMostOnce (s : State J) : Prop where
  once : s.made.length ≤ 1
  rightful : ∀ g ∈ s.made, g.Rightful rt

/-- A table without an administrator is believed only while the file has none and
nobody else is about to grant; the file can be read when it is read; and what is
written is read back. -/
def Orderly (s : State J) : Act J → Prop
  | .check _ =>
      Grants.anyAdmin s.loader.table = true ∨
        ¬ListsAdmin rt s.file ∧ ∀ k, ¬(s.phase k).InFlight
  | .read _ fails => fails = false ∧ Legible rt s.file
  | .openFile j =>
      ∀ new bytes, s.phase j = .loaded new → Cap.write rt (.map new) = .ok bytes →
        rt.readFromFile bytes = .ok (.map new)
  | _ => True

/-! ## The document that is written -/

variable {rt} {uuid} {s s' : State J} {j : J} {file : Option ByteArray}

theorem holdsStar_newEntry (u : String) : holdsStar (newEntry u) = true := rfl

theorem principalsOf_appended {new : Entries} {bytes : ByteArray} {u : String}
    (happ : appended (readOrEmpty rt file) u = some new)
    (hread : rt.readFromFile bytes = .ok (.map new)) :
    principalsOf rt (some bytes) = principalsOf rt file ++ [newEntry u] := by
  unfold appended at happ
  split at happ
  · rename_i l hl
    obtain rfl := Option.some.inj happ
    have hbefore : principalsOf rt file = l := by simp only [principalsOf, hl]
    have hdoc : readOrEmpty rt (some bytes) =
        put "principals" (.list (l ++ [newEntry u])) (readOrEmpty rt file) := by
      simp only [readOrEmpty, readMap, hread, Option.getD_some]
    simp only [principalsOf, hdoc, getOr, get_put_self] at hbefore ⊢
    rw [hbefore]
  · cases happ

/-! ## The invariant of an orderly run -/

/-- What is known of the file while a command is in the phase. -/
def PhaseOk (rt : CapRuntime) (file : Option ByteArray) : Phase → Prop
  | .checked => ¬ListsAdmin rt file
  | .loaded new =>
      ¬ListsAdmin rt file ∧ Legible rt file ∧ ∃ u, appended (readOrEmpty rt file) u = some new
  | .opened before bytes =>
      file = some ByteArray.empty ∧ (Made.mk before (some bytes)).Rightful rt ∧
        ListsAdmin rt (some bytes)
  | _ => True

theorem phaseOk_of_not_inFlight {phase : Phase} (h : ¬phase.InFlight) : PhaseOk rt file phase := by
  cases phase with
  | checked => exact (h trivial).elim
  | loaded new => exact (h trivial).elim
  | opened before bytes => exact (h trivial).elim
  | waiting => trivial
  | written => trivial
  | done => trivial

/-- One command at a time is about to grant, and once one has granted there is an
administrator in the file and nobody else is about to. -/
structure Inv (rt : CapRuntime) (s : State J) : Prop where
  phases : ∀ j, PhaseOk rt s.file (s.phase j)
  unique : ∀ j k, (s.phase j).InFlight → (s.phase k).InFlight → j = k
  made : s.made = [] ∨
    AtMostOnce rt s ∧ ListsAdmin rt s.file ∧ ∀ j, ¬(s.phase j).InFlight

theorem goes_phase_self (next : Phase) : (s.goes j next).phase j = next :=
  Function.update_self ..

theorem goes_phase_of_ne {k : J} (hk : k ≠ j) (next : Phase) :
    (s.goes j next).phase k = s.phase k :=
  Function.update_of_ne hk ..

namespace Inv

omit [DecidableEq J] in
theorem initial (loader : Grants.Loader) : Inv rt (initial file loader : State J) where
  phases _ := trivial
  unique _ _ h := h.elim
  made := .inl rfl

omit [DecidableEq J] in
theorem congr (h : Inv rt s) (hfile : s'.file = s.file) (hphase : s'.phase = s.phase)
    (hmade : s'.made = s.made) : Inv rt s' where
  phases := by
    rw [hfile, hphase]
    exact h.phases
  unique := by
    rw [hphase]
    exact h.unique
  made := by
    rw [hmade, hfile, hphase]
    refine h.made.imp_right fun ⟨hone, hrest⟩ => ⟨⟨?_, ?_⟩, hrest⟩
    · rw [hmade]
      exact hone.once
    · rw [hmade]
      exact hone.rightful

theorem unique_goes (h : Inv rt s) {next : Phase}
    (halone : next.InFlight → ∀ k, (s.phase k).InFlight → k = j) (k l : J)
    (hk : ((s.goes j next).phase k).InFlight) (hl : ((s.goes j next).phase l).InFlight) :
    k = l := by
  have hother : ∀ {k l}, k ≠ j → ((s.goes j next).phase k).InFlight →
      ((s.goes j next).phase l).InFlight → k = l := by
    clear hk hl
    intro k l hkj hk hl
    rw [goes_phase_of_ne hkj] at hk
    rcases eq_or_ne l j with rfl | hlj
    · rw [goes_phase_self] at hl
      exact halone hl k hk
    · rw [goes_phase_of_ne hlj] at hl
      exact h.unique k l hk hl
  by_cases hkj : k = j
  · by_cases hlj : l = j
    · rw [hkj, hlj]
    · exact (hother hlj hl hk).symm
  · exact hother hkj hk hl

theorem goes (h : Inv rt s) {next : Phase} (hok : PhaseOk rt s.file next)
    (hflight : next.InFlight → s.made = [] ∧ ∀ k, (s.phase k).InFlight → k = j) :
    Inv rt (s.goes j next) where
  phases k := by
    rcases eq_or_ne k j with rfl | hk
    · rw [goes_phase_self]
      exact hok
    · rw [goes_phase_of_ne hk]
      exact h.phases k
  unique := h.unique_goes fun hnext => (hflight hnext).2
  made := by
    rcases h.made with hnone | ⟨hone, hadmin, hidle⟩
    · exact .inl hnone
    · by_cases hnext : next.InFlight
      · exact .inl (hflight hnext).1
      · refine .inr ⟨⟨hone.once, hone.rightful⟩, hadmin, fun k => ?_⟩
        rcases eq_or_ne k j with rfl | hk
        · rw [goes_phase_self]
          exact hnext
        · rw [goes_phase_of_ne hk]
          exact hidle k

theorem stops (h : Inv rt s) {next : Phase} (hnext : ¬next.InFlight) : Inv rt (s.goes j next) :=
  h.goes (phaseOk_of_not_inFlight hnext) fun hflight => (hnext hflight).elim

omit [DecidableEq J] in
theorem alone (h : Inv rt s) (hj : (s.phase j).InFlight) :
    s.made = [] ∧ ∀ k, (s.phase k).InFlight → k = j := by
  refine ⟨?_, fun k hk => h.unique k j hk hj⟩
  rcases h.made with hnone | ⟨-, -, hidle⟩
  · exact hnone
  · exact (hidle j hj).elim

theorem check (h : Inv rt s) (hord : Orderly rt s (.check j)) :
    Inv rt (s.goes j (asked s.loader.table)) := by
  unfold asked
  split
  · exact h.stops not_false
  · rename_i hadmin
    rcases hord with hsome | ⟨hnone, hidle⟩
    · exact absurd hsome hadmin
    · refine h.goes hnone fun _ => ⟨?_, fun k hk => (hidle k hk).elim⟩
      exact h.made.resolve_right fun hgranted => hnone hgranted.2.1

theorem read (h : Inv rt s) (hj : s.phase j = .checked) {fails : Bool} (u : String)
    (hord : Orderly rt s (.read j fails)) : Inv rt (s.goes j (afterRead rt s.file fails u)) := by
  obtain ⟨rfl, hlegible⟩ := hord
  have hnone : ¬ListsAdmin rt s.file := by
    have hphase := h.phases j
    rw [hj] at hphase
    exact hphase
  unfold afterRead
  simp only [Bool.false_eq_true, if_false]
  split
  · rename_i new happ
    exact h.goes ⟨hnone, hlegible, u, happ⟩ fun _ => h.alone (by rw [hj]; trivial)
  · exact h.stops not_false

theorem openFile (h : Inv rt s) {new : Entries} (hj : s.phase j = .loaded new)
    (hord : Orderly rt s (.openFile j)) : Inv rt (openedBy rt s j new) := by
  have halone := h.alone (j := j) (by rw [hj]; trivial)
  obtain ⟨hnone, hlegible, u, happ⟩ : PhaseOk rt s.file (.loaded new) := hj ▸ h.phases j
  unfold openedBy
  split
  · rename_i bytes hwrite
    have hlists := principalsOf_appended happ (hord new bytes hj hwrite)
    have hrightful : (Made.mk s.file (some bytes)).Rightful rt := by
      refine ⟨hnone, hlegible, fun entry hentry => ?_⟩
      rw [hlists]
      exact List.mem_append_left _ hentry
    have hadmin : ListsAdmin rt (some bytes) := by
      refine List.any_eq_true.mpr ⟨newEntry u, ?_, holdsStar_newEntry u⟩
      rw [hlists]
      exact List.mem_append_right _ (List.mem_singleton_self _)
    refine ⟨fun k => ?_, h.unique_goes fun _ => halone.2, .inl halone.1⟩
    -- nobody else is in flight, so nobody else depends on the file that is truncated
    change PhaseOk rt (some ByteArray.empty) ((s.goes j (.opened s.file bytes)).phase k)
    rcases eq_or_ne k j with rfl | hk
    · rw [goes_phase_self]
      exact ⟨rfl, hrightful, hadmin⟩
    · rw [goes_phase_of_ne hk]
      exact phaseOk_of_not_inFlight fun hflight => hk (halone.2 k hflight)
  · exact h.stops not_false
  · split
    · exact h.stops not_false
    · exact h.stops not_false

theorem write (h : Inv rt s) {before : Option ByteArray} {bytes : ByteArray}
    (hj : s.phase j = .opened before bytes)
    (hs : step rt uuid s (.write j) = some s') : Inv rt s' := by
  have halone := h.alone (j := j) (by rw [hj]; trivial)
  obtain ⟨hempty, hrightful, hadmin⟩ : PhaseOk rt s.file (.opened before bytes) := hj ▸ h.phases j
  have hfile : CapInterleaving.overlay (some bytes) s.file = some bytes := by
    rw [hempty]
    exact (CapInterleaving.jobs rt fun (_ : Unit) => .grant .null).overlay_truncated (some bytes)
  have hidle : ∀ k, ¬((s.goes j .written).phase k).InFlight := by
    intro k hk
    rcases eq_or_ne k j with rfl | hkj
    · rw [goes_phase_self] at hk
      exact hk
    · rw [goes_phase_of_ne hkj] at hk
      exact hkj (halone.2 k hk)
  unfold step at hs
  simp only [hj, halone.1, hfile, List.nil_append] at hs
  obtain rfl := Option.some.inj hs
  refine ⟨fun k => phaseOk_of_not_inFlight (hidle k), fun k l hk => (hidle k hk).elim, .inr ⟨?_, ?_⟩⟩
  · refine ⟨Nat.le_refl 1, fun g hg => ?_⟩
    rw [List.mem_singleton.mp hg]
    exact hrightful
  · exact ⟨hadmin, hidle⟩

omit [DecidableEq J] in
theorem withLoaded (h : Inv rt s) : Inv rt (withLoaded rt s) := by
  unfold AutoAdmin.withLoaded
  split
  · exact h.congr rfl rfl rfl
  · exact h

theorem step (h : Inv rt s) {a : Act J} (hord : Orderly rt s a)
    (hs : step rt uuid s a = some s') : Inv rt s' := by
  cases a with
  | check j =>
    simp only [AutoAdmin.step] at hs
    split at hs
    · obtain rfl := Option.some.inj hs
      exact h.check hord
    · cases hs
  | read j fails =>
    simp only [AutoAdmin.step] at hs
    split at hs
    · rename_i hj
      obtain rfl := Option.some.inj hs
      exact h.read hj (uuid j) hord
    · cases hs
  | openFile j =>
    simp only [AutoAdmin.step] at hs
    split at hs
    · rename_i new hj
      obtain rfl := Option.some.inj hs
      exact h.openFile hj hord
    · cases hs
  | write j =>
    cases hj : s.phase j with
    | opened before bytes => exact h.write hj hs
    | _ => simp [AutoAdmin.step, hj] at hs
  | load j =>
    simp only [AutoAdmin.step] at hs
    split at hs
    · obtain rfl := Option.some.inj hs
      exact (h.stops (show ¬Phase.done.InFlight from not_false)).withLoaded
    · cases hs
  | reload fails =>
    obtain rfl := Option.some.inj hs
    cases fails with
    | true => exact h
    | false => exact h.withLoaded
  | apply i =>
    obtain ⟨snapshot, -, hs⟩ := Option.bind_eq_some_iff.mp hs
    obtain ⟨loader, -, rfl⟩ := Option.map_eq_some_iff.mp hs
    exact h.congr rfl rfl rfl
  | owner a =>
    simp only [AutoAdmin.step] at hs
    split at hs
    · cases hs
    · obtain ⟨loader, -, rfl⟩ := Option.map_eq_some_iff.mp hs
      exact h.congr rfl rfl rfl

end Inv

omit [DecidableEq J] in
theorem Inv.atMostOnce (h : Inv rt s) : AtMostOnce rt s := by
  rcases h.made with hnone | ⟨hone, -⟩
  · refine ⟨?_, fun g hg => ?_⟩
    · rw [hnone]
      exact Nat.zero_le 1
    · rw [hnone] at hg
      cases hg
  · exact hone

/-- The one command of these runs. -/
def oneUser (_ : Unit) : String := "7b9f3c1a-0000-4000-8000-000000000001"

/-- What is written for it where there is no file. -/
def firstDocument : Value := .map [(.str "principals", .list [newEntry (oneUser ())])]

/-- The table of a runtime that has just started. -/
def noGrants : Grants.Loader := ⟨Ets.empty, .idle⟩

/-- A file with an administrator that cannot be loaded, since the other principal of it
holds a permission nobody has declared. -/
def unloadable : Value :=
  .map [(.str "principals", .list [newEntry "ou_admin",
    .map [(.str "capabilities", .list [.str "session.list2"]), (.str "id", .str "ou_bob")]])]

end AutoAdmin
end Esr
