import Mathlib.Data.List.Permutation
import Esr.GrantEffect
import Esr.ReadModifyWrite

/-! # Grants and revocations side by side

`SlashHandler` runs every command in a task of its own, so any number of
`cap_grant` and `cap_revoke` edit `capabilities.yaml` at the same time, each
reading the whole file and writing the whole file back with `File.write/2`.

`Reflected` says that the file is what the commands that replied ok leave when
they are run one after the other in some order.  Two grants that both read before
either writes break it (`not_reflected_bothRead`); runs in which every
command opens a file that nobody is writing and that holds what it has read keep
it (`reflected_of_fresh`).
-/
namespace Esr
open Yaml Cap

/-- A command on the file. -/
inductive CapJob where
  | grant (cmd : Value)
  | revoke (cmd : Value)

/-- `mod.execute(command)`: the reply, and the file it leaves. -/
def CapJob.execute (rt : CapRuntime) (file : Option ByteArray) : CapJob → Reply × Option ByteArray
  | .grant cmd => Grant.execute rt file cmd
  | .revoke cmd => Revoke.execute rt file cmd

namespace CapInterleaving
variable {J : Type} (rt : CapRuntime) (cmds : J → CapJob)

/-- The bytes of a file after `new` has been written from its start. -/
def overlay : Option ByteArray → Option ByteArray → Option ByteArray
  | some new, some old => some (new ++ old.extract new.size old.size)
  | new, _ => new

/-- The commands as jobs on the file.  `File.write/2` opens the file, which
truncates it, and then writes. -/
def jobs : FileJobs J (Option ByteArray) where
  run j file :=
    match (cmds j).execute rt file with
    | (.ok _ _ _, file') => some file'
    | _ => none
  truncated := some ByteArray.empty
  overlay := overlay
  overlay_truncated d := by
    cases d with
    | none => rfl
    | some d =>
      have hnil : ByteArray.empty.extract d.size ByteArray.empty.size = ByteArray.empty := by
        apply ByteArray.ext
        simp
      rw [overlay, hnil, ByteArray.append_empty]

/-- `RunsTo rt cmds order file file'`: the commands of `order`, one after the
other from `file`, all reply ok and leave `file'`. -/
inductive RunsTo (file : Option ByteArray) : List J → Option ByteArray → Prop
  | nil : RunsTo file [] file
  | snoc {order : List J} {j : J} {mid last : Option ByteArray} {pid perm action : String} :
      RunsTo file order mid → (cmds j).execute rt mid = (.ok pid perm action, last) →
      RunsTo file (order ++ [j]) last

/-- The file is what the commands that have replied ok leave in some order. -/
def Reflected (init : Option ByteArray) (s : FileJobs.State J (Option ByteArray)) : Prop :=
  ∃ order : List J, order.Nodup ∧ (∀ j, j ∈ order ↔ s.phase j = .done) ∧
    RunsTo rt cmds init order s.file

variable {rt cmds} {init file : Option ByteArray} {s : FileJobs.State J (Option ByteArray)}

theorem run_eq_some {j : J} :
    (jobs rt cmds).run j init = some file ↔
      ∃ pid perm action, (cmds j).execute rt init = (.ok pid perm action, file) := by
  unfold jobs
  constructor
  · intro h
    simp only at h
    split at h
    · rename_i pid perm action file' hok
      obtain rfl := Option.some.inj h
      exact ⟨pid, perm, action, hok⟩
    · cases h
  · rintro ⟨pid, perm, action, hok⟩
    simp only [hok]

theorem replay_iff_runsTo {order : List J} :
    (jobs rt cmds).replay order init = some file ↔ RunsTo rt cmds init order file := by
  induction order using List.reverseRecOn generalizing file with
  | nil =>
    constructor
    · intro h
      obtain rfl := Option.some.inj h
      exact .nil
    · intro h
      generalize ho : ([] : List J) = order at h
      cases h with
      | nil => rfl
      | snoc _ _ => simp at ho
  | append_singleton order j ih =>
    rw [FileJobs.replay_append_singleton, Option.bind_eq_some_iff]
    constructor
    · rintro ⟨mid, hmid, hrun⟩
      obtain ⟨pid, perm, action, hok⟩ := run_eq_some.mp hrun
      exact .snoc (ih.mp hmid) hok
    · intro h
      generalize ho : order ++ [j] = order' at h
      cases h with
      | nil => simp at ho
      | snoc hmid hok =>
        obtain ⟨rfl, hj⟩ := List.append_inj' ho rfl
        obtain rfl := List.singleton_inj.mp hj
        exact ⟨_, ih.mpr hmid, run_eq_some.mpr ⟨_, _, _, hok⟩⟩

theorem reflected_iff_serializable :
    Reflected rt cmds init s ↔ (jobs rt cmds).Serializable init s := by
  unfold Reflected FileJobs.Serializable
  simp only [replay_iff_runsTo]

/-- **Runs that lose no update**: when every command opens a file that nobody is
writing and that holds what it has read, then whenever nobody is writing, the
file reflects every command that has replied ok. -/
theorem reflected_of_fresh [DecidableEq J] {rt : CapRuntime} {cmds : J → CapJob}
    {init : Option ByteArray} {s : FileJobs.State J (Option ByteArray)}
    (h : Reaches (jobs rt cmds).step FileJobs.Fresh (FileJobs.initial init) s)
    (hnone : ∀ k, ¬(s.phase k).IsWriting) : Reflected rt cmds init s :=
  reflected_iff_serializable.mpr (FileJobs.serializable_of_fresh h hnone)

/-! ## Two grants on a missing file -/

/-- `session.list` and `msg.send`, both granted to `ou_alice`. -/
def twoGrants (first : Bool) : CapJob :=
  .grant (Grant.grantAlice (if first then "session.list" else "msg.send"))

/-- A runtime that reads what either grant writes on a missing file. -/
def twoGrantsRuntime : CapRuntime :=
  Grant.esrDev [Grant.aliceDocument "session.list", Grant.aliceDocument "msg.send"]

/-- The permission of either grant. -/
def permissionOf (first : Bool) : String := if first then "session.list" else "msg.send"

/-- What the other grant makes of the document of one of them. -/
def bothDocument (first : Bool) : Value :=
  .map [(.str "principals", .list [.map [(.str "capabilities",
    .list [.str (permissionOf first), .str (permissionOf !first)]), (.str "id", .str "ou_alice"),
      (.str "kind", .str "feishu_user")]])]

theorem run_twoGrants {first : Bool} {file : Option ByteArray} {doc : Value}
    (hgrant : Grant.doGrant twoGrantsRuntime file "ou_alice" (permissionOf first) =
      replyTo file "ou_alice" (permissionOf first) "granted" (Cap.write twoGrantsRuntime doc))
    (hdoc : (Cap.write twoGrantsRuntime doc).toOption.isSome = true) :
    ∃ bytes, Cap.write twoGrantsRuntime doc = .ok bytes ∧
      (jobs twoGrantsRuntime twoGrants).run first file = some (some bytes) := by
  obtain ⟨bytes, hbytes⟩ := Grant.exists_written hdoc
  have hexecute : (twoGrants first).execute twoGrantsRuntime file =
      Grant.doGrant twoGrantsRuntime file "ou_alice" (permissionOf first) := by
    cases first <;> rfl
  refine ⟨bytes, hbytes, run_eq_some.mpr ⟨"ou_alice", permissionOf first, "granted", ?_⟩⟩
  rw [hexecute, hgrant, hbytes]
  rfl

theorem run_missing (first : Bool) : ∃ bytes,
    Cap.write twoGrantsRuntime (Grant.aliceDocument (permissionOf first)) = .ok bytes ∧
      (jobs twoGrantsRuntime twoGrants).run first none = some (some bytes) :=
  run_twoGrants rfl (by cases first <;> decide +kernel)

theorem run_written (first : Bool) {bytes : ByteArray}
    (h : Cap.write twoGrantsRuntime (Grant.aliceDocument (permissionOf first)) = .ok bytes) :
    ∃ bytes', Cap.write twoGrantsRuntime (bothDocument first) = .ok bytes' ∧
      (jobs twoGrantsRuntime twoGrants).run (!first) (some bytes) = some (some bytes') := by
  have hread : twoGrantsRuntime.readFromFile bytes =
      .ok (Grant.aliceDocument (permissionOf first)) := by
    cases first with
    | true => exact Grant.readerFor_write h
    | false => exact (Grant.readerFor_of_ne h (by decide +kernel)).trans (Grant.readerFor_write h)
  refine run_twoGrants ?_ (by cases first <;> decide +kernel)
  rw [Grant.doGrant, Grant.readOrEmpty, readMap, hread]
  cases first <;> rfl

theorem replay_twoGrants_ne (first : Bool) {bytes : ByteArray}
    (h : Cap.write twoGrantsRuntime (Grant.aliceDocument (permissionOf false)) = .ok bytes) :
    (jobs twoGrantsRuntime twoGrants).replay [first, !first] none ≠ some (some bytes) := by
  obtain ⟨_, hfirst, hrun⟩ := run_missing first
  obtain ⟨both, hboth, hlast⟩ := run_written first hfirst
  have hreplay : (jobs twoGrantsRuntime twoGrants).replay [first, !first] none =
      some (some both) := by
    simp only [FileJobs.replay, List.foldlM_cons, List.foldlM_nil, Option.bind_eq_bind, hrun, hlast,
      Option.bind_some]
    rfl
  rw [hreplay]
  intro heq
  obtain rfl := Option.some.inj (Option.some.inj heq)
  -- the two documents have different texts
  obtain ⟨text, htext, rfl⟩ := Grant.text_of_write hboth
  obtain ⟨text', htext', hbytes⟩ := Grant.text_of_write h
  obtain rfl := String.toByteArray_inj.mp hbytes
  have hne : (Writer.encode (bothDocument first)).toOption ≠
      (Writer.encode (Grant.aliceDocument (permissionOf false))).toOption := by
    cases first <;> decide +kernel
  rw [htext, htext'] at hne
  exact hne rfl

/-- Run in turn, both grants are in the file. -/
theorem reflected_inTurn :
    ∃ s : FileJobs.State Bool (Option ByteArray), (∀ k, s.phase k = .done) ∧
      Reflected twoGrantsRuntime twoGrants none s := by
  obtain ⟨_, hfirst, hrun⟩ := run_missing true
  obtain ⟨_, -, hrun'⟩ := run_written true hfirst
  have hfile := FileJobs.run_fresh (s := FileJobs.initial none) (j := true) rfl hrun
    fun _ ⟨_, h⟩ => by cases h
  have hboth := FileJobs.run_fresh (j := false)
    (s := ⟨_, Function.update (FileJobs.initial none).phase true .done⟩) rfl hrun' (by
      rintro k ⟨_, h⟩
      cases k <;> cases h)
  refine ⟨_, ?_, reflected_of_fresh ⟨_, hfile.append hboth⟩ ?_⟩
  · intro k
    cases k <;> rfl
  · rintro k ⟨_, h⟩
    cases k <;> cases h

/-- **A lost grant**: both grants reply ok, and the file, which has only the
second, is not the one that either order of the two leaves. -/
theorem not_reflected_bothRead :
    ¬∀ (J : Type) (_ : DecidableEq J) (rt : CapRuntime) (cmds : J → CapJob)
      (init : Option ByteArray) (s : FileJobs.State J (Option ByteArray)),
      Reaches (jobs rt cmds).step anyStep (FileJobs.initial init) s →
      (∀ k, s.phase k = .done) → Reflected rt cmds init s := by
  intro h
  obtain ⟨first, -, hrun⟩ := run_missing true
  obtain ⟨second, hsecond, hrun'⟩ := run_missing false
  have hloaded := FileJobs.step_read (s := FileJobs.initial none) (j := true) rfl hrun
  have hloaded' := FileJobs.step_read (j := false)
    (s := ⟨none, Function.update (FileJobs.initial none).phase true (.loaded none (some first))⟩)
    rfl hrun'
  obtain ⟨order, hnodup, hmem, hreplay⟩ := reflected_iff_serializable.mp
    (h Bool inferInstance twoGrantsRuntime twoGrants none _
      ⟨_, .cons trivial hloaded (.cons trivial hloaded'
        (.append (FileJobs.run_write (j := true) rfl trivial fun _ => trivial)
          (FileJobs.run_write (j := false) rfl trivial fun _ => trivial)))⟩
      fun k => by cases k <;> rfl)
  have hperm : order.Perm [true, false] := by
    refine (List.perm_ext_iff_of_nodup hnodup (by decide)).mpr fun k => ?_
    rw [hmem]
    exact iff_of_true (by cases k <;> rfl) (by cases k <;> decide)
  rcases List.perm_pair.mp hperm with rfl | rfl
  · exact replay_twoGrants_ne true hsecond hreplay
  · exact replay_twoGrants_ne false hsecond hreplay

end CapInterleaving
end Esr
