import Esr.InstanceInvariant

/-! # The primary agent of a session

A session's primary row is never deleted, and it always names an attached agent.
Whether a populated session has one depends on how its first agent came: a
creation gives a primary to the first of the listed sessions only, and an attach
gives none.  `Led` is the condition that such a session has its primary already;
`populated_of_led` is the result, and `populated_run_iff` that the condition is
exact.
-/
namespace Esr
namespace InstanceRegistry

variable {Config : Type} {st st' : State Config} {op : Op Config}

/-- Every session that an instance is attached to has a primary, which is the
name of an instance attached to it. -/
def Populated (st : State Config) : Prop :=
  ∀ id s n, Attached st.table id s n →
    ∃ m, primary st s = some m ∧ ∃ id', Attached st.table id' s m

/-- The primary row is there. -/
def HasPrimary (st : State Config) : Prop :=
  ∀ id s n, Attached st.table id s n → st.primaryRows.lookup s ≠ none

theorem populated_iff (hs : Sound st) : Populated st ↔ HasPrimary st := by
  constructor
  · intro h id s n hatt hnone
    obtain ⟨m, hm, -⟩ := h id s n hatt
    rw [primary, hnone] at hm
    cases hm
  · intro h id s n hatt
    obtain ⟨m, hm⟩ := Option.ne_none_iff_exists'.mp (h id s n hatt)
    obtain ⟨id', hid'⟩ := hs.primary_index s m hm
    exact ⟨m, hm, id', hs.index_row s m id' hid'⟩

/-- The listed sessions but the first have a primary, if the creation goes through. -/
def RestLed (st : State Config) (attrs : Attrs Config) : Prop :=
  (∀ s ∈ attrs.sessionIds, st.nameIndex.lookup (s, attrs.name) = none) →
    ∀ s ∈ attrs.sessionIds, s ≠ attrs.primarySid → st.primaryRows.lookup s ≠ none

instance (st : State Config) (attrs : Attrs Config) : Decidable (RestLed st attrs) :=
  inferInstanceAs (Decidable ((∀ s ∈ attrs.sessionIds, _) → ∀ s ∈ attrs.sessionIds, _ → _))

/-- A creation that goes through has a primary in each listed session but the
first, and an attach that goes through has one in the target. -/
def Led (st : State Config) : Op Config → Prop
  | .addInstance attrs _ | .addInstanceAndSpawn attrs _ _ (some _) => RestLed st attrs
  | .attachToSession name sourceSid targetSid =>
      ∀ inst ∈ get st sourceSid name, targetSid ∉ inst.sessionIds →
        st.nameIndex.lookup (targetSid, name) = none → st.primaryRows.lookup targetSid ≠ none
  | _ => True

instance (st : State Config) : (op : Op Config) → Decidable (Led st op)
  | .addInstance attrs _ | .addInstanceAndSpawn attrs _ _ (some _) =>
      inferInstanceAs (Decidable (RestLed st attrs))
  | .attachToSession name sourceSid _ =>
      inferInstanceAs (Decidable (∀ inst ∈ get st sourceSid name, _ → _ → _))
  | .addInstanceAndSpawn _ _ _ none | .removeInstance _ _ | .setPrimary _ _ |
    .renameInstance _ _ _ => isTrue trivial

theorem Led.rest (h : Led st op) {attrs : Attrs Config} {id : String}
    (hadds : op.adds = some (attrs, id)) : RestLed st attrs := by
  rcases Op.adds_eq_some hadds with rfl | ⟨ptyId, supPid, rfl⟩
  · exact h
  · exact h

/-! ## A primary row stays -/

theorem promote_ne_none {rows : Ets String String} {sid name s : String}
    (h : rows.lookup s ≠ none) : (promote rows sid name).lookup s ≠ none := by
  rw [lookup_promote]
  split
  · exact Option.some_ne_none _
  · exact h

theorem Effect.primary_stays (h : Effect st op st') {s : String}
    (hp : st.primaryRows.lookup s ≠ none) : st'.primaryRows.lookup s ≠ none := by
  cases h with
  | unchanged => exact hp
  | enter hadds hsids hname hfresh hfree => exact promote_ne_none hp
  | detach hix hrow hprimary => exact hp
  | setPrimary hix =>
    rw [Ets.lookup_insert]
    split
    · exact Option.some_ne_none _
    · exact hp
  | rename hne hfree hix hrow =>
    rw [State.rename, lookup_renamePrimary]
    split
    · exact Option.some_ne_none _
    · exact hp
  | attach hix hrow hnew hfree => exact hp

theorem HasPrimary.effect (hp : HasPrimary st) (h : Effect st op st') (hled : Led st op) :
    HasPrimary st' := by
  intro id s n hatt
  by_cases hold : ∃ id' n', Attached st.table id' s n'
  · obtain ⟨id', n', hold⟩ := hold
    exact h.primary_stays (hp id' s n' hold)
  -- nobody was attached to `s`, so this request is what populates it
  cases h with
  | unchanged => exact absurd ⟨id, n, hatt⟩ hold
  | @enter _ attrs inst sup hadds hsids hname hfresh hfree =>
    rw [State.enter, attached_insert] at hatt
    split at hatt
    · rw [State.enter, lookup_promote]
      split
      · exact Option.some_ne_none _
      · rename_i hne
        exact hled.rest hadds (fun s hs => hname ▸ hfree s (hsids ▸ hs)) s (hsids ▸ hatt.2) hne
    · exact absurd ⟨id, n, hatt⟩ hold
  | @detach sid name inst hix hrow hprimary =>
    rw [doDetach, attached_detachRow hrow] at hatt
    split at hatt
    · exact absurd ⟨inst.id, n, (attached_of_row hrow).mpr
        ⟨hatt.1, List.mem_of_mem_erase hatt.2⟩⟩ hold
    · exact absurd ⟨id, n, hatt⟩ hold
  | setPrimary hix => exact absurd ⟨id, n, hatt⟩ hold
  | @rename sid name newName inst hne hfree hix hrow =>
    -- a rename attaches nobody
    rw [State.rename, attached_insert] at hatt
    split at hatt
    · exact absurd ⟨inst.id, inst.name, (attached_of_row hrow).mpr ⟨rfl, hatt.2⟩⟩ hold
    · exact absurd ⟨id, n, hatt⟩ hold
  | @attach name sourceSid targetSid inst hix hrow hnew hfree =>
    rw [State.attach, attached_insert] at hatt
    split at hatt
    · rcases List.mem_append.mp hatt.2 with hmem | hlast
      · exact absurd ⟨inst.id, inst.name, (attached_of_row hrow).mpr ⟨rfl, hmem⟩⟩ hold
      · rw [List.mem_singleton.mp hlast]
        exact hled inst (get_eq_some.mpr ⟨_, hix, hrow⟩) hnew hfree
    · exact absurd ⟨id, n, hatt⟩ hold

theorem enter_of_free {attrs : Attrs Config} {id : String} (hadds : op.adds = some (attrs, id))
    (h : step st op = some st')
    (hfree : ∀ s ∈ attrs.sessionIds, st.nameIndex.lookup (s, attrs.name) = none) :
    ∃ inst sup, inst.sessionIds = attrs.sessionIds ∧ st' = st.enter inst attrs.primarySid sup := by
  have hfind : (attrs.sessionIds.find? fun s =>
      (st.nameIndex.lookup (s, attrs.name)).isSome) = none :=
    List.find?_eq_none.mpr fun s hs => by simp [hfree s hs]
  rcases Op.adds_eq_some hadds with rfl | ⟨ptyId, supPid, rfl⟩
  · simp only [step] at h
    split at h
    · obtain rfl := Option.some.inj h
      rw [addInstance, hfind]
      exact ⟨⟨id, _, _, _, _, _⟩, st.supRows, rfl, rfl⟩
    · cases h
  · simp only [step] at h
    split at h
    · obtain rfl := Option.some.inj h
      rw [addInstanceAndSpawn, hfind]
      exact ⟨⟨id, _, _, _, _, _⟩, _, rfl, rfl⟩
    · cases h

theorem restLed_of_hasPrimary {attrs : Attrs Config} {id : String}
    (hadds : op.adds = some (attrs, id)) (h : step st op = some st') (hp' : HasPrimary st') :
    RestLed st attrs := by
  intro hfree s hs hne
  obtain ⟨inst, sup, hsids, rfl⟩ := enter_of_free hadds h hfree
  have hatt : Attached (st.enter inst attrs.primarySid sup).table inst.id s inst.name := by
    rw [State.enter, attached_insert, if_pos rfl]
    exact ⟨rfl, hsids ▸ hs⟩
  have hled := hp' inst.id s inst.name hatt
  rwa [State.enter, lookup_promote, if_neg hne] at hled

theorem led_of_hasPrimary (hs : Sound st) (h : step st op = some st') (hp' : HasPrimary st') :
    Led st op := by
  cases op with
  | addInstance attrs id => exact restLed_of_hasPrimary rfl h hp'
  | addInstanceAndSpawn attrs ccId ptyId spawned =>
    cases spawned with
    | none => trivial
    | some pid => exact restLed_of_hasPrimary rfl h hp'
  | attachToSession name sourceSid targetSid =>
    intro inst hget hnew hfree
    obtain ⟨id, hix, hrow⟩ := get_eq_some.mp hget
    obtain rfl := hs.row_id id inst hrow
    obtain rfl : st.attach inst name targetSid = st' := by
      simpa [step, attachToSession, State.attach, hix, hrow, hnew, hfree] using h
    refine hp' inst.id targetSid inst.name ?_
    rw [State.attach, attached_insert, if_pos rfl]
    exact ⟨rfl, by simp⟩
  | removeInstance sid name => trivial
  | setPrimary sid name => trivial
  | renameInstance sid name newName => trivial

/-- **Populated sessions have a primary**, in every state reached by requests that
populate led sessions only. -/
theorem populated_of_led (h : Reaches step Led (init : State Config) st) : Populated st := by
  refine (populated_iff (sound_reaches h)).mpr ?_
  obtain ⟨_, hr⟩ := h
  induction hr with
  | nil =>
    rintro id s n ⟨inst, hrow, -⟩
    simp [init] at hrow
  | snoc hr hled hstep ih =>
    exact ih.effect ((sound_reaches ⟨_, hr⟩).step_effect hstep) hled

/-- **The condition is exact.**  In all states a run comes through every populated session
has its primary exactly if each request populated led sessions only. -/
theorem populated_run_iff {ops : List (Op Config)} (h : Run step anyStep init ops st) :
    (∀ pre st', pre <+: ops → Run step anyStep init pre st' → Populated st') ↔
      Run step Led init ops st := by
  refine Run.iff_of_exact ?_ ?_ h
  · rintro id s n ⟨inst, hrow, -⟩
    simp [init] at hrow
  · intro st op st' hreach hp hstep
    have hs := sound_reaches hreach
    rw [populated_iff hs] at hp
    rw [populated_iff (hs.step hstep)]
    exact ⟨led_of_hasPrimary hs hstep, hp.effect (hs.step_effect hstep)⟩

theorem populated_run_iff_oneAgent : ∃ st : State Unit,
    (∀ pre st', pre <+: [.addInstance (agentIn "A" "x") "id1"] →
      Run step anyStep init pre st' → Populated st') ∧ primary st "A" = some "x" := by
  have hrun : ((exec step Led (init : State Unit) [.addInstance (agentIn "A" "x") "id1"]).map
      fun st => primary st "A") = some (some "x") := by decide
  obtain ⟨st, hst, hprimary⟩ := Option.map_eq_some_iff.mp hrun
  have hr := Run.of_exec hst
  exact ⟨st, (populated_run_iff hr.unguarded).mpr hr, hprimary⟩

theorem populated_after_attach : ∃ st : State Unit, Reaches step Led init st ∧ Populated st ∧
    primary st "B" = some "n" ∧ get st "B" "x" = some (.mk "id1" ["A", "B"] "cc" "x" () none) := by
  have hrun : ((exec step Led (init : State Unit)
      [.addInstance (agentIn "A" "x") "id1", .addInstance (agentIn "B" "n") "id2",
        .attachToSession "x" "A" "B"]).map fun st => (primary st "B", get st "B" "x")) =
      some (some "n", some (.mk "id1" ["A", "B"] "cc" "x" () none)) := by decide
  obtain ⟨st, hst, hreads⟩ := Option.map_eq_some_iff.mp hrun
  obtain ⟨hprimary, hget⟩ := Prod.mk.inj hreads
  exact ⟨st, .of_exec hst, populated_of_led (.of_exec hst), hprimary, hget⟩

/-- Without the condition: the first agent of session `B` comes by an attach. -/
theorem not_populated_attach :
    ¬∀ st : State Unit, Reaches step anyStep init st → Populated st := by
  intro h
  have hrun : ((exec step anyStep (init : State Unit)
      [.addInstance (agentIn "A" "x") "id1", .attachToSession "x" "A" "B"]).map fun st =>
        (st.table.lookup "id1", primary st "B")) =
      some (some (.mk "id1" ["A", "B"] "cc" "x" () none), none) := by decide
  obtain ⟨st, hst, hreads⟩ := Option.map_eq_some_iff.mp hrun
  obtain ⟨hrow, hprimary⟩ := Prod.mk.inj hreads
  obtain ⟨m, hm, -⟩ := h st (.of_exec hst) "id1" "B" "x" ⟨_, hrow, rfl, by simp⟩
  rw [hprimary] at hm
  cases hm

end InstanceRegistry
end Esr
