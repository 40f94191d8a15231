import Esr.SlashHandler

/-! # The permission gate of the slash handler

A command is `Permitted` against a table of grants when its kind requires no
permission, or its submitter holds the one it requires, or the three bootstrap
conditions hold.  Everything the queue entry starts is permitted
(`dispatchCommand_permitted`).  The text entry never asks: it starts permitted
commands only when the text's route does not get as far as a start, or needs no
permission (`permitted_iff_exempt`).
-/
namespace Esr
namespace SlashHandler
open Yaml

/-- The three conditions under which the sentinel may run a command without
holding its permission. -/
def Bootstrap (table : Grants.Table) (submittedBy : Value) (kind : String) : Prop :=
  submittedBy = .str bootstrapSentinel ∧ kind ∈ bootstrapAllowedKinds ∧
    Grants.anyAdmin table = false

/-- The gate, on a command that is started. -/
def Permitted (rt : Runtime) (table : Grants.Table) (command : Entries) : Prop :=
  ∀ kind required, get "kind" command = some (.str kind) →
    rt.registry.permissionFor kind = some required → required ≠ .null →
    capabilityHas rt table (submitterOf command) required = some true ∨
      Bootstrap table (submitterOf command) kind

/-- The inputs for which no start needs a permission that is not asked for: those
of the queue, and the texts that resolve to no route, or to one whose
preconditions fail, or to one whose kind needs no permission. -/
def Exempt (rt : Runtime) : Entry → Prop
  | .queue _ => True
  | .text envelope _ =>
      ∀ text route args, extractText envelope = .ok text →
        rt.registry.lookup text = some route → prepareArgs rt text route envelope = .ok args →
        ∀ required, rt.registry.permissionFor route.kind = some required → required = .null

variable {rt : Runtime} {table : Grants.Table}

theorem bootstrapBypass_iff {submittedBy : Value} {kind : String} :
    bootstrapBypass table submittedBy kind = true ↔ Bootstrap table submittedBy kind := by
  unfold bootstrapBypass Bootstrap
  simp [Value.isStr_iff, and_assoc]

/-- **The queue entry is gated.** -/
theorem dispatchCommand_permitted {command command' : Entries}
    (h : dispatchCommand rt table command = .started command') :
    Permitted rt table command' := by
  unfold dispatchCommand at h
  split at h
  · rename_i kind hkind
    have hsame : ∀ {kind' : String}, get "kind" command = some (.str kind') → kind' = kind := by
      intro kind' hkind'
      rw [hkind] at hkind'
      exact (Value.str.inj (Option.some.inj hkind')).symm
    split at h
    · cases h
    · -- the kind needs no permission
      rename_i hnull
      obtain rfl := Outcome.started.inj h
      intro kind' required hkind' hreq hne
      rw [hsame hkind', hnull] at hreq
      exact absurd (Option.some.inj hreq).symm hne
    · rename_i required _ hrequired
      split at h
      · rename_i hbypass
        obtain rfl := Outcome.started.inj h
        intro kind' required' hkind' _ _
        rw [hsame hkind']
        exact Or.inr (bootstrapBypass_iff.mp hbypass)
      · split at h
        · rename_i hhas
          obtain rfl := Outcome.started.inj h
          intro kind' required' hkind' hreq _
          rw [hsame hkind', hrequired] at hreq
          obtain rfl := Option.some.inj hreq
          exact Or.inl hhas
        · cases h
        · cases h
  · cases h

theorem dispatch_eq_started {envelope : Value} {id : String} {command : Entries}
    (h : dispatch rt envelope id = .started command) :
    ∃ text principalId route args, extractText envelope = .ok text ∧
      rt.registry.lookup text = some route ∧ prepareArgs rt text route envelope = .ok args ∧
      command = buildCommand id route.kind principalId args := by
  unfold dispatch at h
  split at h
  · rename_i text principalId htext hprincipal
    split at h
    · cases h
    · rename_i route hroute
      split at h
      · rename_i args hargs
        exact ⟨text, principalId, route, args, htext, hroute, hargs, (Outcome.started.inj h).symm⟩
      · cases h
      · cases h
  · cases h

theorem principal_of_text {envelope : Value} {text : String}
    (h : extractText envelope = .ok text) :
    ∃ principalId, orElse (access "principal_id" envelope) (.ok (.str "ou_unknown")) =
      .ok principalId := by
  have horElse : ∀ v w : Value, ∃ p, orElse (.ok v) (.ok w) = .ok p := by
    intro v w
    by_cases hv : truthy v = true
    · exact ⟨v, if_pos hv⟩
    · exact ⟨w, if_neg hv⟩
  cases envelope with
  | map m => exact horElse _ _
  | null => exact horElse _ _
  | _ => cases h

theorem get_kind_buildCommand (id kind : String) (principalId : Value) (args : Entries) :
    get "kind" (buildCommand id kind principalId args) = some (.str kind) := rfl

/-- A table that gives a principal nothing, under its own id or the one it is
bound to, and that has an admin. -/
theorem exists_table_denying (resolve : String → Option String) (principal : String) :
    ∃ table : Grants.Table, Grants.anyAdmin table = true ∧
      ∀ perm, Capability.has resolve table principal perm = false := by
  -- longer than both ids, so different from them
  let admin := principal ++ (resolve principal).getD "" ++ "'"
  have hlen : admin.length = principal.length + ((resolve principal).getD "").length + 1 := by
    simp only [admin, String.length_append]
    rfl
  refine ⟨Ets.empty.insert admin ["*"], ?_, ?_⟩
  · exact Grants.anyAdmin_iff.mpr ⟨admin, ["*"], Ets.lookup_insert_self _ _ _,
      List.mem_singleton_self _⟩
  · intro perm
    rw [Bool.eq_false_iff]
    intro hhas
    obtain ⟨u, hu, hheld⟩ := Capability.has_iff.mp hhas
    have hne : u ≠ admin := by
      intro he
      have hulen := congrArg String.length he
      rcases hu with rfl | hu
      · omega
      · rw [hu, Option.getD_some] at hlen
        omega
    rw [Grants.has_iff] at hheld
    obtain ⟨held, hrow, -⟩ := hheld
    rw [Ets.lookup_insert_of_ne _ _ hne, Ets.lookup_empty] at hrow
    cases hrow

theorem exists_not_permitted {command : Entries} {kind : String} {required : Value}
    (hkind : get "kind" command = some (.str kind))
    (hreq : rt.registry.permissionFor kind = some required) (hne : required ≠ .null) :
    ∃ table, ¬Permitted rt table command := by
  have hdeny : ∃ table : Grants.Table, Grants.anyAdmin table = true ∧
      capabilityHas rt table (submitterOf command) required ≠ some true := by
    unfold capabilityHas
    split
    · rename_i principal perm hsubmitter
      obtain ⟨table, hadmin, hnone⟩ := exists_table_denying rt.resolve principal
      refine ⟨table, hadmin, ?_⟩
      rw [hnone perm]
      decide
    · -- the submitter or the permission is not a string, so the check raises
      obtain ⟨table, hadmin, -⟩ := exists_table_denying rt.resolve ""
      exact ⟨table, hadmin, by decide⟩
  obtain ⟨table, hadmin, hhas⟩ := hdeny
  refine ⟨table, fun hperm => ?_⟩
  rcases hperm kind required hkind hreq hne with h | ⟨-, -, hno⟩
  · exact hhas h
  · rw [hadmin] at hno
    cases hno

theorem dispatch_permitted_iff {envelope : Value} {id : String} :
    (∀ (table : Grants.Table) (command : Entries), dispatch rt envelope id = .started command →
        Permitted rt table command) ↔ Exempt rt (.text envelope id) := by
  constructor
  · intro hall text route args htext hroute hargs required hreq
    by_contra hne
    obtain ⟨principalId, hprincipal⟩ := principal_of_text htext
    have hstart : dispatch rt envelope id =
        .started (buildCommand id route.kind principalId args) := by
      simp only [dispatch, htext, hprincipal, hroute, hargs]
    obtain ⟨table, hnot⟩ :=
      exists_not_permitted (get_kind_buildCommand id route.kind principalId args) hreq hne
    exact hnot (hall table _ hstart)
  · intro hexempt table command h
    obtain ⟨text, principalId, route, args, htext, hroute, hargs, hcommand⟩ :=
      dispatch_eq_started h
    intro kind required hkind hreq hne
    rw [hcommand, get_kind_buildCommand] at hkind
    rw [← Value.str.inj (Option.some.inj hkind)] at hreq
    exact absurd (hexempt text route args htext hroute hargs required hreq) hne

/-- **When the handler is gated**: what it starts for an entry is permitted,
whatever the grants, exactly if the entry is exempt. -/
theorem permitted_iff_exempt (rt : Runtime) (entry : Entry) :
    (∀ (table : Grants.Table) (command : Entries), handle rt table entry = .started command →
        Permitted rt table command) ↔ Exempt rt entry := by
  cases entry with
  | queue command =>
    refine iff_of_true ?_ trivial
    intro table command' h
    exact dispatchCommand_permitted h
  | text envelope id =>
    simp only [handle]
    exact dispatch_permitted_iff

/-! ## A grant typed in a chat -/

/-- The route of `/cap:grant`. -/
def capGrantRoute : SlashRoute where
  slash := "/cap:grant"
  kind := "cap_grant"
  requiresWorkspaceBinding := false
  requiresUserBinding := false
  args := [⟨"target_principal_id", true, .null⟩, ⟨"permission", true, .null⟩]

/-- A runtime with that one route, which requires `cap.manage`. -/
def capGrantRuntime : Runtime where
  registry :=
    { slashTable := Ets.empty.insert "/cap:grant" capGrantRoute
      kindTable := Ets.empty.insert "cap_grant" (.str "cap.manage") }
  workspaceNameForChat _ _ := none
  usernameForFeishuId _ := none
  resolve _ := none
  pathJoin parts := "/".intercalate parts

/-- A chat message in which `ou_mallory` grants itself everything. -/
def selfGrant : Value :=
  .map [(.str "payload", .map [(.str "text", .str "/cap:grant ou_mallory permission=*")]),
    (.str "principal_id", .str "ou_mallory")]

/-- The message starts `cap_grant` for a principal that holds nothing. -/
theorem not_permitted_selfGrant :
    ¬∀ (rt : Runtime) (entry : Entry) (table : Grants.Table) (command : Entries),
      handle rt table entry = .started command → Permitted rt table command := by
  intro h
  have hrun : (dispatch capGrantRuntime selfGrant "1").command.map (fun command =>
      ((get "kind" command).any (Value.isStr "cap_grant"),
        (submitterOf command).isStr "ou_mallory")) = some (true, true) := by decide +kernel
  cases hd : dispatch capGrantRuntime selfGrant "1" with
  | started command =>
    rw [hd] at hrun
    obtain ⟨hkind, hsubmitter⟩ := Prod.mk.inj (Option.some.inj hrun)
    rw [Option.any_eq_true] at hkind
    obtain ⟨v, hv, hstr⟩ := hkind
    rw [Value.isStr_iff.mp hstr] at hv
    have hperm := h capGrantRuntime (.text selfGrant "1") Ets.empty command hd "cap_grant"
      (.str "cap.manage") hv (Ets.lookup_insert_self _ _ _) (by simp)
    rw [Value.isStr_iff.mp hsubmitter] at hperm
    rcases hperm with hhas | ⟨hboot, -, -⟩
    · simp [capabilityHas, Capability.has, Grants.has, capGrantRuntime] at hhas
    · have hne : "ou_mallory" ≠ bootstrapSentinel := by decide
      exact hne (Value.str.inj hboot)
  | answered answer =>
    rw [hd] at hrun
    cases hrun
  | raised =>
    rw [hd] at hrun
    cases hrun

end SlashHandler
end Esr
