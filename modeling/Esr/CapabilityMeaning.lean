import Esr.CapabilityFile

/-! # What an accepted capability means

The file loader and the grants table were written apart.  The loader takes
`scope/permission` with a scope `workspace:…`, `session:…` or a bare `*`; the matcher cuts
a scope at its `:` and knows no scope without one, so `*/msg.send` is accepted and matches
nothing but itself.  And where the file has several entries of one principal, the loader
keeps the capabilities of the last one only.
-/
namespace Esr
namespace CapabilityMeaning
open Yaml FileLoader

/-! ## What a capability says -/

/-- A scope covers another: it is a bare `*`, or has a bare `*` for its name, or is the
other one. -/
def ScopeCovers (held required : String) : Prop :=
  held = "*" ∨ held = required ∨
    ∃ p n, ':' ∉ p.toList ∧ held = p ++ ":" ++ "*" ∧ required = p ++ ":" ++ n

/-- A permission covers another. -/
def PermCovers (held required : String) : Prop := held = "*" ∨ held = required

/-- `scope/permission` says that it covers the required string. -/
def SaysCovered (cap required : String) : Prop :=
  ∃ scope perm rScope rPerm, splitParts2 '/' cap = [scope, perm] ∧
    splitParts2 '/' required = [rScope, rPerm] ∧ ScopeCovers scope rScope ∧ PermCovers perm rPerm

/-- A principal that holds the capability has what it says and nothing else. -/
def MeansWhatItSays (cap : String) : Prop :=
  ∀ pid required, Grants.has (Ets.empty.insert pid [cap]) pid required = true ↔
    SaysCovered cap required

/-- The rows of a list of entries that are all accepted. -/
def rowsOf (rt : CapRuntime) (entries : List Value) : List (String × List String) :=
  entries.filterMap fun entry => (validateEntry rt entry).toOption

/-- Accepted capabilities mean what they say, and a principal has what its entries have,
taken together. -/
structure Meant (rows : List (String × List String)) (t : Grants.Table) : Prop where
  caps : ∀ row ∈ rows, ∀ cap ∈ row.2, '/' ∈ cap.toList → MeansWhatItSays cap
  union : ∀ pid required, Grants.has t pid required = true ↔
    ∃ row ∈ rows, row.1 = pid ∧ ∃ cap ∈ row.2, Grants.capMatches cap required = true

/-- No capability has a bare `*` for its scope. -/
def Scopes (rows : List (String × List String)) : Prop :=
  ∀ row ∈ rows, ∀ cap ∈ row.2, ∀ perm, splitParts2 '/' cap ≠ ["*", perm]

/-- The last entry of a principal covers what its other entries have. -/
def LastCovers (rows : List (String × List String)) : Prop :=
  ∀ before pid last after, rows = before ++ (pid, last) :: after →
    (∀ row ∈ after, row.1 ≠ pid) → ∀ row ∈ before, row.1 = pid →
      ∀ cap ∈ row.2, ∃ h ∈ last, Grants.capMatches h cap = true

/-! ## One capability -/

variable {rt : CapRuntime} {cap : String} {rows : List (String × List String)}

theorem validateCap_scoped {pid : String} (h : validateCap rt cap pid = .ok ())
    (hslash : '/' ∈ cap.toList) :
    ∃ scope perm, splitParts2 '/' cap = [scope, perm] ∧ validateScope scope = .ok () := by
  have hstar : cap ≠ "*" := by
    rintro rfl
    exact absurd hslash (by decide)
  unfold validateCap at h
  rw [if_neg hstar, if_neg (not_not.mpr hslash)] at h
  split at h
  · rename_i scope perm hsplit
    obtain ⟨⟨⟩, hscope, -⟩ := bind_eq_ok.mp h
    exact ⟨scope, perm, hsplit, hscope⟩
  · cases h

theorem colon_mem_of_validateScope {scope : String} (h : validateScope scope = .ok ()) :
    scope = "*" ∨ ':' ∈ scope.toList := by
  unfold validateScope at h
  split at h
  · rename_i hpre
    obtain ⟨rest, hrest⟩ := Option.isSome_iff_exists.mp hpre
    obtain rfl := stripPrefix_eq_some.mp hrest
    exact Or.inr (by simp)
  · split at h
    · rename_i hstar
      exact Or.inl hstar
    · split at h
      · rename_i hpre
        obtain ⟨rest, hrest⟩ := Option.isSome_iff_exists.mp hpre
        obtain rfl := stripPrefix_eq_some.mp hrest
        exact Or.inr (by simp)
      · cases h

theorem has_single (cap pid required : String) :
    Grants.has (Ets.empty.insert pid [cap]) pid required = Grants.capMatches cap required := by
  simp [Grants.has]

theorem exists_scoped {scope perm : String} (hsplit : splitParts2 '/' cap = [scope, perm])
    (hcolon : ':' ∈ scope.toList) :
    ∃ c : Scoped, c.text = cap ∧ c.scope = scope ∧ c.perm = perm := by
  cases hcut : cutAt ':' scope.toList with
  | none => exact absurd hcolon (cutAt_eq_none.mp hcut)
  | some cut =>
    have hsc : splitParts2 ':' scope = [String.ofList cut.1, String.ofList cut.2] := by
      simp only [splitParts2, hcut]
    obtain ⟨c, rfl, -, -, -⟩ := Scoped.exists_of_split hsplit hsc
    obtain ⟨hscope, hperm⟩ : c.scope = scope ∧ c.perm = perm := by
      simpa using c.split_text.symm.trans hsplit
    exact ⟨c, rfl, hscope, hperm⟩

/-- The scope of a capability covers the scopes with the same prefix and, unless its name is
a bare `*`, the same name. -/
theorem scopeCovers_iff (c r : Scoped) : ScopeCovers c.scope r.scope ↔
    c.scopePrefix = r.scopePrefix ∧ (c.name = "*" ∨ c.name = r.name) := by
  constructor
  · rintro (hstar | heq | ⟨p, n, hp, hc, hr⟩)
    · have hcolon : ':' ∈ c.scope.toList := by simp [Scoped.scope]
      rw [hstar] at hcolon
      exact absurd hcolon (by decide)
    · have hsplit := c.split_scope
      rw [heq, r.split_scope] at hsplit
      obtain ⟨hpre, hname⟩ : r.scopePrefix = c.scopePrefix ∧ r.name = c.name := by
        simpa using hsplit
      exact ⟨hpre.symm, Or.inr hname.symm⟩
    · have hcs : splitParts2 ':' c.scope = [p, "*"] := splitParts2_eq_pair.mpr ⟨hc, hp⟩
      have hrs : splitParts2 ':' r.scope = [p, n] := splitParts2_eq_pair.mpr ⟨hr, hp⟩
      rw [c.split_scope] at hcs
      rw [r.split_scope] at hrs
      obtain ⟨hcp, hcn⟩ : c.scopePrefix = p ∧ c.name = "*" := by simpa using hcs
      obtain ⟨hrp, -⟩ : r.scopePrefix = p ∧ r.name = n := by simpa using hrs
      exact ⟨hcp.trans hrp.symm, Or.inl hcn⟩
  · rintro ⟨hpre, hstar | hname⟩
    · refine Or.inr (Or.inr ⟨c.scopePrefix, r.name, c.prefix_no_colon, ?_, ?_⟩)
      · rw [Scoped.scope, hstar]
      · rw [Scoped.scope, hpre]
    · refine Or.inr (Or.inl ?_)
      rw [Scoped.scope, Scoped.scope, hpre, hname]

theorem saysCovered_iff (c : Scoped) {required : String} :
    SaysCovered c.text required ↔ ∃ r : Scoped, r.text = required ∧ c.Covers r := by
  constructor
  · rintro ⟨scope, perm, rScope, rPerm, hc, hr, hscope, hperm⟩
    obtain ⟨rfl, rfl⟩ : c.scope = scope ∧ c.perm = perm := by simpa using c.split_text.symm.trans hc
    have hcolon : ':' ∈ rScope.toList := by
      rcases hscope with hstar | heq | ⟨p, n, -, -, hr⟩
      · have hmem : ':' ∈ c.scope.toList := by simp [Scoped.scope]
        rw [hstar] at hmem
        exact absurd hmem (by decide)
      · rw [← heq]
        simp [Scoped.scope]
      · rw [hr]
        simp
    obtain ⟨r, rfl, rfl, rfl⟩ := exists_scoped hr hcolon
    obtain ⟨hpre, hname⟩ := (scopeCovers_iff c r).mp hscope
    exact ⟨r, rfl, hpre, hname, hperm⟩
  · rintro ⟨r, rfl, hpre, hname, hperm⟩
    exact ⟨_, _, _, _, c.split_text, r.split_text, (scopeCovers_iff c r).mpr ⟨hpre, hname⟩, hperm⟩

theorem meansWhatItSays_scoped (c : Scoped) : MeansWhatItSays c.text := by
  intro pid required
  rw [has_single, Grants.capMatches_iff, saysCovered_iff]
  constructor
  · rintro (rfl | hstar | ⟨h, r, hh, rfl, hcov⟩)
    · exact ⟨c, rfl, .refl c⟩
    · exact absurd hstar c.text_ne_star
    · obtain rfl := Scoped.text_injective hh
      exact ⟨r, rfl, hcov⟩
  · rintro ⟨r, rfl, hcov⟩
    exact Or.inr (Or.inr ⟨c, r, rfl, rfl, hcov⟩)

theorem not_meansWhatItSays_star {perm : String} (hsplit : splitParts2 '/' cap = ["*", perm]) :
    ¬MeansWhatItSays cap := by
  intro h
  have hreq : splitParts2 '/' ("workspace:w/" ++ perm) = ["workspace:w", perm] := by
    refine splitParts2_eq_pair.mpr ⟨?_, by decide⟩
    rw [show "workspace:w/" = "workspace:w" ++ String.singleton '/' from rfl]
  have hsays : SaysCovered cap ("workspace:w/" ++ perm) :=
    ⟨"*", perm, "workspace:w", perm, hsplit, hreq, Or.inl rfl, Or.inr rfl⟩
  have hhas := (h "p" _).mpr hsays
  rw [has_single, Grants.capMatches_iff] at hhas
  rcases hhas with rfl | hstar | ⟨c, r, rfl, -, -⟩
  · exact absurd (hsplit.symm.trans hreq) (by simp)
  · rw [hstar] at hsplit
    exact absurd hsplit (by rw [splitParts2_eq_whole (by decide)]; simp)
  · obtain ⟨hscope, -⟩ : c.scope = "*" ∧ c.perm = perm := by simpa using c.split_text.symm.trans hsplit
    have hmem : ':' ∈ c.scope.toList := by simp [Scoped.scope]
    rw [hscope] at hmem
    exact absurd hmem (by decide)

/-- **An accepted capability means what it says** unless its scope is a bare `*`. -/
theorem meansWhatItSays_iff {pid : String} (h : validateCap rt cap pid = .ok ())
    (hslash : '/' ∈ cap.toList) :
    MeansWhatItSays cap ↔ ∀ perm, splitParts2 '/' cap ≠ ["*", perm] := by
  constructor
  · exact fun hmeans perm hsplit => not_meansWhatItSays_star hsplit hmeans
  · intro hscope
    obtain ⟨scope, perm, hsplit, hvalid⟩ := validateCap_scoped h hslash
    rcases colon_mem_of_validateScope hvalid with rfl | hcolon
    · exact absurd hsplit (hscope perm)
    · obtain ⟨c, rfl, -, -⟩ := exists_scoped hsplit hcolon
      exact meansWhatItSays_scoped c

/-! ## The entries of a file -/

theorem exists_lookup {row : String × List String} (h : row ∈ rows) :
    ∃ last, (Ets.empty.insertEach rows : Grants.Table).lookup row.1 = some last := by
  rw [Ets.lookup_insertEach, Ets.lookup_empty, Option.or_none]
  cases hfind : rows.reverse.find? fun r => decide (r.1 = row.1) with
  | some r => exact ⟨r.2, rfl⟩
  | none => simpa using List.find?_eq_none.mp hfind row (List.mem_reverse.mpr h)

/-- **A principal has what its entries have together** exactly if the last one covers what
the others have. -/
theorem union_iff (rows : List (String × List String)) :
    (∀ pid required, Grants.has (Ets.empty.insertEach rows) pid required = true ↔
      ∃ row ∈ rows, row.1 = pid ∧ ∃ cap ∈ row.2, Grants.capMatches cap required = true) ↔
      LastCovers rows := by
  have hheld : ∀ {pid last}, (Ets.empty.insertEach rows : Grants.Table).lookup pid = some last →
      Grants.heldBy (Ets.empty.insertEach rows) pid = last := by
    intro pid last hlookup
    rw [Grants.heldBy, hlookup, Option.getD_some]
  constructor
  · rintro hunion before pid last after hsplit hafter row hrow rfl cap hcap
    have hlookup := Ets.lookup_insertEach_empty.mpr ⟨before, after, hsplit, hafter⟩
    have hmem : row ∈ rows := hsplit ▸ List.mem_append_left _ hrow
    have hhas := (hunion row.1 cap).mpr ⟨row, hmem, rfl, cap, hcap, Grants.capMatches_refl cap⟩
    rw [Grants.has_iff_heldBy, hheld hlookup] at hhas
    exact hhas
  · intro hlast pid required
    rw [Grants.has_iff_heldBy]
    constructor
    · rintro ⟨h, hmem, hmatch⟩
      cases hlookup : (Ets.empty.insertEach rows : Grants.Table).lookup pid with
      | none =>
        rw [Grants.heldBy, hlookup, Option.getD_none] at hmem
        cases hmem
      | some last =>
        rw [hheld hlookup] at hmem
        obtain ⟨before, after, hsplit, -⟩ := Ets.lookup_insertEach_empty.mp hlookup
        exact ⟨(pid, last), hsplit ▸ List.mem_append_right _ List.mem_cons_self, rfl, h, hmem, hmatch⟩
    · rintro ⟨row, hrow, rfl, cap, hcap, hmatch⟩
      obtain ⟨last, hlookup⟩ := exists_lookup hrow
      rw [hheld hlookup]
      obtain ⟨before, after, hsplit, hafter⟩ := Ets.lookup_insertEach_empty.mp hlookup
      -- the row is the last of its principal, or one before it
      rcases List.mem_append.mp (hsplit ▸ hrow) with hbefore | hrest
      · obtain ⟨h, hmem, hcov⟩ := hlast before row.1 last after hsplit hafter row hbefore rfl cap hcap
        exact ⟨h, hmem, Grants.capMatches_trans hcov hmatch⟩
      · rcases List.mem_cons.mp hrest with heq | hin
        · have hlast' : row.2 = last := congrArg Prod.snd heq
          exact ⟨cap, hlast' ▸ hcap, hmatch⟩
        · exact absurd rfl (hafter row hin)

theorem rowsOf_eq {entries : List Value}
    (h : List.Forall₂ (fun entry row => validateEntry rt entry = .ok row) entries rows) :
    rowsOf rt entries = rows := by
  induction h with
  | nil => rfl
  | cons hrow _ ih =>
    rw [rowsOf, List.filterMap_cons, hrow]
    exact congrArg _ ih

theorem validateCap_of_mem {entries : List Value}
    (h : List.Forall₂ (fun entry row => validateEntry rt entry = .ok row) entries rows)
    {row : String × List String} (hrow : row ∈ rows) (hcap : cap ∈ row.2) :
    validateCap rt cap row.1 = .ok () := by
  induction h with
  | nil => cases hrow
  | cons hentry _ ih =>
    rcases List.mem_cons.mp hrow with rfl | hrest
    · obtain ⟨_, -, -, -, -, hall⟩ := validateEntry_eq_ok.mp hentry
      exact hall cap hcap
    · exact ih hrest

/-- **Accepted capabilities mean what they say**, and a principal has what its entries have
together, exactly where no capability has a bare `*` for its scope and the last entry of
each principal covers what its other entries have. -/
theorem meant_iff {rt : CapRuntime} {entries : List Value} {t : Grants.Table}
    (h : validateEntries rt entries Ets.empty = .ok t) :
    Meant (rowsOf rt entries) t ↔ Scopes (rowsOf rt entries) ∧ LastCovers (rowsOf rt entries) := by
  obtain ⟨rows, hrows, rfl⟩ := validateEntries_eq_ok.mp h
  rw [rowsOf_eq hrows]
  have hcap : ∀ row ∈ rows, ∀ cap ∈ row.2, '/' ∈ cap.toList →
      (MeansWhatItSays cap ↔ ∀ perm, splitParts2 '/' cap ≠ ["*", perm]) :=
    fun row hrow cap hcap hslash => meansWhatItSays_iff (validateCap_of_mem hrows hrow hcap) hslash
  constructor
  · intro hmeant
    refine ⟨fun row hrow cap hmem perm hsplit => ?_, (union_iff rows).mp hmeant.union⟩
    have hslash : '/' ∈ cap.toList := by
      obtain ⟨rfl, -⟩ := splitParts2_eq_pair.mp hsplit
      simp
    exact (hcap row hrow cap hmem hslash).mp (hmeant.caps row hrow cap hmem hslash) perm hsplit
  · rintro ⟨hscopes, hlast⟩
    exact ⟨fun row hrow cap hmem hslash =>
      (hcap row hrow cap hmem hslash).mpr (hscopes row hrow cap hmem), (union_iff rows).mpr hlast⟩

/-- A runtime in which `msg.send` is declared. -/
def demo : CapRuntime where
  readFromFile _ := .error ""
  declared perm := perm = "msg.send"
  uuidForWorkspaceName _ := none
  mkdirFault := none
  openFault := none

/-- An entry of the file. -/
def entry (pid : String) (caps : List String) : Value :=
  .map [(.str "id", .str pid), (.str "capabilities", .list (caps.map .str))]

theorem meant_workspaces :
    Meant (rowsOf demo [entry "ou_1" ["workspace:*/msg.send"]])
      (Ets.empty.insert "ou_1" ["workspace:*/msg.send"]) := by
  refine (meant_iff rfl).mpr ⟨?_, ?_⟩
  · intro row hrow cap hcap perm
    obtain rfl := List.mem_singleton.mp hrow
    obtain rfl := List.mem_singleton.mp hcap
    rw [show splitParts2 '/' "workspace:*/msg.send" = ["workspace:*", "msg.send"] by decide]
    simp
  · intro before pid last after hsplit _ row hrow
    have hlen := congrArg List.length hsplit
    have hone : (rowsOf demo [entry "ou_1" ["workspace:*/msg.send"]]).length = 1 := rfl
    have hpos := List.length_pos_of_mem hrow
    rw [hone, List.length_append, List.length_cons] at hlen
    omega

/-- **A grant that does nothing**: `*/msg.send` is accepted, and covers no workspace. -/
theorem not_meant_scopeStar :
    ¬∀ (rt : CapRuntime) (entries : List Value) (t : Grants.Table),
      validateEntries rt entries Ets.empty = .ok t → Meant (rowsOf rt entries) t := by
  intro h
  have hmeant := h demo [entry "ou_1" ["*/msg.send"]] _ rfl
  have hsplit : splitParts2 '/' "*/msg.send" = ["*", "msg.send"] := by decide
  exact not_meansWhatItSays_star hsplit
    (hmeant.caps ("ou_1", ["*/msg.send"]) (List.mem_singleton_self _) _
      (List.mem_singleton_self _) (by decide))

end CapabilityMeaning
end Esr
