import Mathlib.Data.Fintype.Defs
import Mathlib.Data.List.Nodup
import Mathlib.Logic.Function.Basic
import Esr.Runs

/-! # Jobs that read, change and write back one file

Several jobs edit one file without a lock.  A job reads the whole file and works
out what to write from what it has read; it then opens the file, which truncates
it, and writes.  The steps of different jobs interleave freely.

`Serializable` says that the file is what the finished jobs give when they are
run one after the other in some order.  Free interleavings lose updates; runs in
which every job that opens the file finds nobody writing, and in it what it has
read, are serializable whenever nobody is writing (`serializable_of_fresh`).
-/
namespace Esr

/-- Jobs over a file with contents `C`.  `run j c` is what the job writes when it
has read `c`, and `none` when it gives up; `overlay d c` is the content after `d`
has been written from the start of a file with content `c`. -/
structure FileJobs (J C : Type) where
  run : J → C → Option C
  truncated : C
  overlay : C → C → C
  overlay_truncated : ∀ d, overlay d truncated = d

namespace FileJobs

/-- How far a job is. -/
inductive Phase (C : Type) where
  | waiting
  | loaded (seen new : C)
  | writing (new : C)
  | done
  | failed
  deriving DecidableEq

/-- The job has opened the file and not written to it yet. -/
def Phase.IsWriting {C : Type} (ph : Phase C) : Prop := ∃ new, ph = .writing new

instance {C : Type} : (ph : Phase C) → Decidable ph.IsWriting
  | .writing new => isTrue ⟨new, rfl⟩
  | .waiting | .loaded _ _ | .done | .failed => isFalse (by rintro ⟨_, h⟩; cases h)

/-- A job that has read has read what is in the file now. -/
def Phase.UpToDate {C : Type} (file : C) : Phase C → Prop
  | .loaded seen _ => file = seen
  | _ => True

instance {C : Type} [DecidableEq C] (file : C) : (ph : Phase C) → Decidable (ph.UpToDate file)
  | .loaded seen _ => inferInstanceAs (Decidable (file = seen))
  | .waiting | .writing _ | .done | .failed => isTrue trivial

/-- The file and the jobs. -/
structure State (J C : Type) where
  file : C
  phase : J → Phase C

/-- A step of one of the jobs. -/
inductive Act (J : Type) where
  | read (j : J)
  | openFile (j : J)
  | write (j : J)

variable {J C : Type} [DecidableEq J] (jobs : FileJobs J C)

/-- One step. -/
def step (s : State J C) : Act J → Option (State J C)
  | .read j =>
      match s.phase j with
      | .waiting =>
          match jobs.run j s.file with
          | some new => some { s with phase := Function.update s.phase j (.loaded s.file new) }
          | none => some { s with phase := Function.update s.phase j .failed }
      | _ => none
  | .openFile j =>
      match s.phase j with
      | .loaded _ new =>
          some { file := jobs.truncated, phase := Function.update s.phase j (.writing new) }
      | _ => none
  | .write j =>
      match s.phase j with
      | .writing new =>
          some { file := jobs.overlay new s.file, phase := Function.update s.phase j .done }
      | _ => none

/-- No job has started. -/
def initial (file : C) : State J C := ⟨file, fun _ => .waiting⟩

/-- The jobs run one after the other, each giving what it writes. -/
def replay (order : List J) (c : C) : Option C := order.foldlM (fun c j => jobs.run j c) c

/-- The file is what the finished jobs give in some order. -/
def Serializable (init : C) (s : State J C) : Prop :=
  ∃ order : List J, order.Nodup ∧ (∀ j, j ∈ order ↔ s.phase j = .done) ∧
    jobs.replay order init = some s.file

/-- A job that opens the file finds nobody writing, and in the file what it has
read. -/
def Fresh (s : State J C) : Act J → Prop
  | .openFile j => (∀ k, ¬(s.phase k).IsWriting) ∧ (s.phase j).UpToDate s.file
  | .read _ | .write _ => True

instance [Fintype J] [DecidableEq C] (s : State J C) : (a : Act J) → Decidable (Fresh s a)
  | .openFile _ => inferInstanceAs (Decidable (_ ∧ _))
  | .read _ | .write _ => isTrue trivial

variable {jobs} {s s' : State J C} {a : Act J} {init : C}

theorem step_cases (h : jobs.step s a = some s') :
    (∃ j new, a = .read j ∧ s.phase j = .waiting ∧ jobs.run j s.file = some new ∧
      s' = { s with phase := Function.update s.phase j (.loaded s.file new) }) ∨
    (∃ j, a = .read j ∧ s.phase j = .waiting ∧
      s' = { s with phase := Function.update s.phase j .failed }) ∨
    (∃ j seen new, a = .openFile j ∧ s.phase j = .loaded seen new ∧
      s' = ⟨jobs.truncated, Function.update s.phase j (.writing new)⟩) ∨
    (∃ j new, a = .write j ∧ s.phase j = .writing new ∧
      s' = ⟨jobs.overlay new s.file, Function.update s.phase j .done⟩) := by
  cases a with
  | read j =>
    simp only [step] at h
    split at h
    · rename_i hph
      split at h
      · exact Or.inl ⟨j, _, rfl, hph, ‹_›, (Option.some.inj h).symm⟩
      · exact Or.inr (Or.inl ⟨j, rfl, hph, (Option.some.inj h).symm⟩)
    · cases h
  | openFile j =>
    simp only [step] at h
    split at h
    · exact Or.inr (Or.inr (Or.inl ⟨j, _, _, rfl, ‹_›, (Option.some.inj h).symm⟩))
    · cases h
  | write j =>
    simp only [step] at h
    split at h
    · exact Or.inr (Or.inr (Or.inr ⟨j, _, rfl, ‹_›, (Option.some.inj h).symm⟩))
    · cases h

theorem step_read {j : J} {new : C} (hw : s.phase j = .waiting)
    (hrun : jobs.run j s.file = some new) : jobs.step s (.read j) =
      some { s with phase := Function.update s.phase j (.loaded s.file new) } := by
  simp only [step, hw, hrun]

theorem run_write {ok : State J C → Act J → Prop} {j : J} {seen new : C}
    (hl : s.phase j = .loaded seen new) (hopen : ok s (.openFile j))
    (hwrite : ∀ t, ok t (.write j)) :
    Run jobs.step ok s [.openFile j, .write j] ⟨new, Function.update s.phase j .done⟩ := by
  have hs : jobs.step s (.openFile j) =
      some ⟨jobs.truncated, Function.update s.phase j (.writing new)⟩ := by
    simp only [step, hl]
  refine .cons hopen hs (.cons (hwrite _) ?_ .nil)
  simp only [step, Function.update_self, Function.update_idem, jobs.overlay_truncated]

theorem run_fresh {j : J} {new : C} (hw : s.phase j = .waiting)
    (hrun : jobs.run j s.file = some new) (hquiet : ∀ k, ¬(s.phase k).IsWriting) :
    Run jobs.step Fresh s [.read j, .openFile j, .write j]
      ⟨new, Function.update s.phase j .done⟩ := by
  have hnone : ∀ k, ¬(Function.update s.phase j (.loaded s.file new) k).IsWriting := by
    apply (Function.forall_update_iff s.phase fun _ ph => ¬ph.IsWriting).mpr
    refine ⟨?_, fun k _ => hquiet k⟩
    rintro ⟨new', h⟩
    cases h
  have hl := Function.update_self j (Phase.loaded s.file new) s.phase
  have hdate : (Function.update s.phase j (.loaded s.file new) j).UpToDate s.file := by
    rw [hl]
    rfl
  have hwrite := @run_write _ _ _ jobs ⟨s.file, Function.update s.phase j (.loaded s.file new)⟩
    Fresh j _ _ hl ⟨hnone, hdate⟩ fun _ => trivial
  rw [Function.update_idem] at hwrite
  exact .cons trivial (step_read hw hrun) hwrite

/-- What fresh runs keep.  `content` is what the finished jobs give in `order`;
the file is that while nobody is writing, and truncated while the one writer has
still to put down what it makes of it. -/
structure Ordered (jobs : FileJobs J C) (init file : C) (phase : J → Phase C) (order : List J)
    (content : C) : Prop where
  nodup : order.Nodup
  done_iff : ∀ j, j ∈ order ↔ phase j = .done
  replayed : jobs.replay order init = some content
  loaded : ∀ j, ∀ seen new, phase j = .loaded seen new → jobs.run j seen = some new
  file_eq : (∀ k, ¬(phase k).IsWriting) → file = content
  writer : ∀ j new, phase j = .writing new →
    (∀ k, (phase k).IsWriting → k = j) ∧ jobs.run j content = some new ∧ file = jobs.truncated

omit [DecidableEq J] in
theorem ordered_initial (init : C) :
    Ordered jobs init init (fun _ : J => Phase.waiting) [] init where
  nodup := List.nodup_nil
  done_iff j := by simp
  replayed := rfl
  loaded j seen new h := by cases h
  file_eq _ := rfl
  writer j new h := by cases h

omit [DecidableEq J] in
theorem replay_append_singleton (order : List J) (j : J) (c : C) :
    jobs.replay (order ++ [j]) c = (jobs.replay order c).bind (jobs.run j) := by
  unfold replay
  rw [List.foldlM_append]
  change (order.foldlM (fun c j => jobs.run j c) c).bind
    (fun c => (jobs.run j c).bind some) = _
  congr
  funext c
  cases jobs.run j c <;> rfl

namespace Ordered
variable {file : C} {phase : J → Phase C} {order : List J} {content : C} {j : J}

theorem read (ho : Ordered jobs init file phase order content) (hw : phase j = .waiting)
    {ph : Phase C} (hdone : ph ≠ .done) (hwrite : ¬ph.IsWriting)
    (hload : ∀ seen new, ph = .loaded seen new → jobs.run j seen = some new) :
    Ordered jobs init file (Function.update phase j ph) order content := by
  have hold : ∀ k, (phase k).IsWriting → k ≠ j := by
    rintro k ⟨new, hnew⟩ rfl
    rw [hw] at hnew
    cases hnew
  have hnew : ∀ k, (Function.update phase j ph k).IsWriting → (phase k).IsWriting :=
    (Function.forall_update_iff phase fun k ph => ph.IsWriting → (phase k).IsWriting).mpr
      ⟨fun h => absurd h hwrite, fun k _ h => h⟩
  refine ⟨ho.nodup, ?_, ho.replayed, ?_, ?_, ?_⟩
  · apply (Function.forall_update_iff phase fun k ph => (k ∈ order ↔ ph = .done)).mpr
    refine ⟨iff_of_false ?_ hdone, fun k _ => ho.done_iff k⟩
    rw [ho.done_iff, hw]
    intro h
    cases h
  · exact (Function.forall_update_iff phase fun k ph =>
      ∀ seen new, ph = .loaded seen new → jobs.run k seen = some new).mpr
      ⟨hload, fun k _ => ho.loaded k⟩
  · intro hnone
    apply ho.file_eq
    intro k hk
    apply hnone k
    rwa [Function.update_of_ne (hold k hk)]
  · intro k new h
    have hk : (phase k).IsWriting := hnew k ⟨new, h⟩
    rw [Function.update_of_ne (hold k hk)] at h
    obtain ⟨honly, hrun, hfile⟩ := ho.writer k new h
    exact ⟨fun i hi => honly i (hnew i hi), hrun, hfile⟩

theorem openFile (ho : Ordered jobs init file phase order content) {seen new : C}
    (hl : phase j = .loaded seen new) (hnone : ∀ k, ¬(phase k).IsWriting)
    (hseen : file = seen) :
    Ordered jobs init jobs.truncated (Function.update phase j (.writing new)) order content := by
  -- nobody is writing, so what the job has read is the content
  have hrun : jobs.run j content = some new := by
    rw [← ho.file_eq hnone, hseen]
    exact ho.loaded j seen new hl
  have honly : ∀ k, (Function.update phase j (.writing new) k).IsWriting → k = j :=
    (Function.forall_update_iff phase fun k ph => ph.IsWriting → k = j).mpr
      ⟨fun _ => rfl, fun k _ hk => absurd hk (hnone k)⟩
  refine ⟨ho.nodup, ?_, ho.replayed, ?_, ?_, ?_⟩
  · apply (Function.forall_update_iff phase fun k ph => (k ∈ order ↔ ph = .done)).mpr
    refine ⟨iff_of_false ?_ (fun h => by cases h), fun k _ => ho.done_iff k⟩
    rw [ho.done_iff, hl]
    intro h
    cases h
  · apply (Function.forall_update_iff phase fun k ph =>
      ∀ seen new, ph = .loaded seen new → jobs.run k seen = some new).mpr
    refine ⟨?_, fun k _ => ho.loaded k⟩
    intro seen' new' h
    cases h
  · -- the job itself is writing now
    intro hno
    exact absurd ⟨new, Function.update_self j _ _⟩ (hno j)
  · intro k new' h
    obtain rfl := honly k ⟨new', h⟩
    rw [Function.update_self] at h
    obtain rfl := Phase.writing.inj h
    exact ⟨honly, hrun, rfl⟩

theorem write (ho : Ordered jobs init file phase order content) {new : C}
    (hw : phase j = .writing new) :
    Ordered jobs init (jobs.overlay new file) (Function.update phase j .done)
      (order ++ [j]) new := by
  obtain ⟨honly, hrun, hfile⟩ := ho.writer j new hw
  have hnot : j ∉ order := by
    rw [ho.done_iff, hw]
    intro h
    cases h
  -- it was the only writer
  have hquiet : ∀ k, ¬(Function.update phase j .done k).IsWriting := by
    apply (Function.forall_update_iff phase fun _ ph => ¬ph.IsWriting).mpr
    refine ⟨?_, fun k hk hwr => hk (honly k hwr)⟩
    rintro ⟨new', h⟩
    cases h
  refine ⟨?_, ?_, ?_, ?_, ?_, ?_⟩
  · rw [List.nodup_append]
    refine ⟨ho.nodup, List.nodup_singleton j, ?_⟩
    rintro k hk i hi rfl
    exact hnot (List.mem_singleton.mp hi ▸ hk)
  · apply (Function.forall_update_iff phase fun k ph => (k ∈ order ++ [j] ↔ ph = .done)).mpr
    refine ⟨iff_of_true (List.mem_append_right _ (List.mem_singleton_self j)) rfl, ?_⟩
    intro k hk
    rw [List.mem_append, List.mem_singleton, or_iff_left hk]
    exact ho.done_iff k
  · rw [replay_append_singleton, ho.replayed, Option.bind_some, hrun]
  · apply (Function.forall_update_iff phase fun k ph =>
      ∀ seen new, ph = .loaded seen new → jobs.run k seen = some new).mpr
    refine ⟨?_, fun k _ => ho.loaded k⟩
    intro seen new' h
    cases h
  · intro _
    rw [hfile, jobs.overlay_truncated]
  · intro k new' h
    exact absurd ⟨new', h⟩ (hquiet k)

end Ordered

theorem ordered_step (h : jobs.step s a = some s') (hfresh : Fresh s a)
    (ho : ∃ order content, Ordered jobs init s.file s.phase order content) :
    ∃ order content, Ordered jobs init s'.file s'.phase order content := by
  obtain ⟨order, content, ho⟩ := ho
  rcases step_cases h with ⟨j, new, rfl, hw, hrun, rfl⟩ | ⟨j, rfl, hw, rfl⟩ |
    ⟨j, seen, new, rfl, hl, rfl⟩ | ⟨j, new, rfl, hw, rfl⟩
  · refine ⟨order, content, ho.read hw (fun h => by cases h) ?_ ?_⟩
    · rintro ⟨new', hnew⟩
      cases hnew
    · intro seen new' hnew
      obtain ⟨rfl, rfl⟩ := Phase.loaded.inj hnew
      exact hrun
  · refine ⟨order, content, ho.read hw (fun h => by cases h) ?_ ?_⟩
    · rintro ⟨new', hnew⟩
      cases hnew
    · intro seen new' hnew
      cases hnew
  · obtain ⟨hnone, hseen⟩ := hfresh
    rw [hl] at hseen
    exact ⟨order, content, ho.openFile hl hnone hseen⟩
  · exact ⟨order ++ [j], new, ho.write hw⟩

/-- **Fresh runs lose nothing**: whenever nobody is writing, the file is what the
finished jobs give in some order. -/
theorem serializable_of_fresh (h : Reaches jobs.step Fresh (initial init) s)
    (hnone : ∀ k, ¬(s.phase k).IsWriting) : jobs.Serializable init s := by
  have hinv : ∃ order content, Ordered jobs init s.file s.phase order content :=
    h.invariant ⟨[], init, ordered_initial init⟩ fun _ _ _ ho hok hs => ordered_step hs hok ho
  obtain ⟨order, content, ho⟩ := hinv
  exact ⟨order, ho.nodup, ho.done_iff, by rw [ho.replayed, ho.file_eq hnone]⟩

end FileJobs
end Esr
