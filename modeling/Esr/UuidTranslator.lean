import Esr.BootFiles
import Esr.WorkspaceUris

/-! # Names of workspaces in capability strings

A capability `workspace:<scope>/<perm>` is typed with the workspace's name for its scope
and stored with its uuid, and `UuidTranslator` turns the one into the other.  The scope
ends at the first `/` of the string, a scope of the shape of a uuid is taken for one, and
any other one has to be a name, `*` included.

`Names` is the naming table as the two lookups see it.  `faithful_iff_translatable` says of which
strings the two translations are inverse to each other, leave alone what they have
translated already, and leave alone what names no workspace.
-/
namespace Esr
namespace UuidTranslator

open WorkspaceUris BootFiles

/-! ## The source -/

/-- `uuid_to_name/1`. -/
def uuidToName (nameForUuid : String → Option String) (cap : String) : String :=
  match parse cap with
  | some (resource, uuid, perm) =>
      if resource = "workspace" then
        match nameForUuid uuid with
        | some name => resource ++ ":" ++ name ++ "/" ++ perm
        | none =>
            if uuidShape uuid then
              resource ++ ":<UNKNOWN-" ++ String.ofList (uuid.toList.take 8) ++ ">/" ++ perm
            else cap
      else cap
  | none => cap

/-- The naming table of the workspaces: what is looked up under a name, and under a scope.
A workspace that is found by its name is found by its uuid, and only by that. -/
structure Names (rt : CapRuntime) where
  nameForUuid : String → Option String
  name_of_uuid : ∀ {name id}, rt.uuidForWorkspaceName name = some id → nameForUuid id = some name
  uuidShape_id : ∀ {name id}, rt.uuidForWorkspaceName name = some id → uuidShape id = true
  uuidShape_scope : ∀ {scope name}, '/' ∉ scope.toList → nameForUuid scope = some name →
    uuidShape scope = true

/-! ## Reading a capability -/

/-- `workspace:<scope>/<perm>`. -/
def capText (scope perm : String) : String := "workspace:" ++ scope ++ "/" ++ perm

theorem parse_capText {scope : String} (h : '/' ∉ scope.toList) (perm : String) :
    parse (capText scope perm) = some ("workspace", scope, perm) := by
  have hcolon : splitParts2 ':' (capText scope perm) =
      ["workspace", scope ++ String.singleton '/' ++ perm] := by
    refine splitParts2_eq_pair.mpr ⟨?_, by decide⟩
    simp [capText, ← String.toList_inj]
  have hslash : splitParts2 '/' (scope ++ String.singleton '/' ++ perm) = [scope, perm] :=
    splitParts2_eq_pair.mpr ⟨rfl, h⟩
  simp only [parse, hcolon, hslash]

theorem of_parse {cap scope perm : String} (h : parse cap = some ("workspace", scope, perm)) :
    cap = capText scope perm ∧ '/' ∉ scope.toList := by
  unfold parse at h
  split at h
  · rename_i resource rest hcolon
    split at h
    · rename_i scope' perm' hslash
      obtain ⟨rfl, rfl, rfl⟩ : resource = "workspace" ∧ scope' = scope ∧ perm' = perm := by
        simpa using h
      obtain ⟨rfl, -⟩ := splitParts2_eq_pair.mp hcolon
      obtain ⟨rfl, hno⟩ := splitParts2_eq_pair.mp hslash
      refine ⟨?_, hno⟩
      simp [capText, ← String.toList_inj]
    · cases h
  · cases h

theorem capText_left_inj {scope scope' perm : String} :
    capText scope perm = capText scope' perm ↔ scope = scope' := by
  simp [capText, ← String.toList_inj]

theorem capText_inj {scope scope' perm perm' : String} (h : '/' ∉ scope.toList)
    (h' : '/' ∉ scope'.toList) :
    capText scope perm = capText scope' perm' ↔ scope = scope' ∧ perm = perm' := by
  constructor
  · intro he
    have hparse := parse_capText h perm
    rw [he, parse_capText h' perm'] at hparse
    simpa [eq_comm] using hparse
  · rintro ⟨rfl, rfl⟩
    rfl

/-- The name up to its first slash. -/
def firstSegment (name : String) : String :=
  match cutAt '/' name.toList with
  | some (segment, _) => String.ofList segment
  | none => name

theorem firstSegment_cases (name : String) :
    '/' ∉ name.toList ∧ firstSegment name = name ∨
      ∃ rest, '/' ∉ (firstSegment name).toList ∧ name = firstSegment name ++ "/" ++ rest := by
  rcases hcut : cutAt '/' name.toList with _ | ⟨segment, rest⟩
  · refine .inl ⟨cutAt_eq_none.mp hcut, ?_⟩
    rw [firstSegment, hcut]
  · obtain ⟨hname, hno⟩ := cutAt_eq_some.mp hcut
    refine .inr ⟨String.ofList rest, ?_, ?_⟩
    · rw [firstSegment, hcut, String.toList_ofList]
      exact hno
    · rw [firstSegment, hcut, ← String.toList_inj, hname]
      simp

theorem exists_capText_firstSegment (name perm : String) :
    '/' ∉ (firstSegment name).toList ∧
      ∃ perm', capText name perm = capText (firstSegment name) perm' ∧
        (perm' = perm → '/' ∉ name.toList ∧ firstSegment name = name) := by
  rcases firstSegment_cases name with ⟨hno, heq⟩ | ⟨rest, hno, hname⟩
  · rw [heq]
    exact ⟨hno, perm, rfl, fun _ => ⟨hno, rfl⟩⟩
  · refine ⟨hno, rest ++ "/" ++ perm, ?_, fun he => ?_⟩
    · conv_lhs => rw [hname]
      simp [capText, ← String.toList_inj]
    · have hlength := congrArg (fun s => s.toList.length) he
      simp only [String.toList_append, List.length_append] at hlength
      have hslash : "/".toList.length = 1 := rfl
      omega

/-! ## What the shape of a uuid excludes -/

theorem uuidShape_head {s : String} (h : uuidShape s = true) :
    ∃ c cs, s.toList = c :: cs ∧ shapeChar 'h' c = true := by
  obtain ⟨hlength, hall⟩ := Bool.and_eq_true_iff.mp h
  have hlength := eq_of_beq hlength
  rcases hs : s.toList with _ | ⟨c, cs⟩
  · rw [hs] at hlength
    cases hlength
  · refine ⟨c, cs, rfl, ?_⟩
    rw [hs] at hlength hall
    have hchomp : ∃ cs', chompNewline (c :: cs) = c :: cs' := by
      rw [chompNewline]
      split
      · rcases cs with _ | ⟨d, cs⟩
        · rename_i hlast
          rw [chompNewline, if_pos hlast] at hlength
          cases hlength
        · exact ⟨(d :: cs).dropLast, rfl⟩
      · exact ⟨cs, rfl⟩
    obtain ⟨cs', hcs'⟩ := hchomp
    rw [hcs'] at hall
    exact (Bool.and_eq_true_iff.mp hall).1

theorem not_uuidShape_star : uuidShape "*" = false := by decide

/-- What an unknown uuid is displayed as. -/
def unknown (uuid : String) : String := "<UNKNOWN-" ++ String.ofList (uuid.toList.take 8) ++ ">"

theorem not_uuidShape_unknown (uuid : String) : uuidShape (unknown uuid) = false := by
  rw [Bool.eq_false_iff]
  intro h
  obtain ⟨c, cs, hs, hc⟩ := uuidShape_head h
  have hhead : (unknown uuid).toList.head? = some '<' := by
    rw [unknown, String.toList_append, String.toList_append]
    rfl
  rw [hs, List.head?_cons] at hhead
  obtain rfl := Option.some.inj hhead
  exact absurd hc (by decide)

theorem no_slash_unknown {uuid : String} (h : '/' ∉ uuid.toList) :
    '/' ∉ (unknown uuid).toList := by
  simp only [unknown, String.toList_append, String.toList_ofList, List.mem_append]
  rintro ((hmem | hmem) | hmem)
  · exact absurd hmem (by decide)
  · exact h (List.mem_of_mem_take hmem)
  · exact absurd hmem (by decide)

/-! ## The two translations -/

section
variable {rt : CapRuntime} {names : Names rt}

theorem Names.no_slash_id (names : Names rt) {name id : String}
    (h : rt.uuidForWorkspaceName name = some id) : '/' ∉ id.toList :=
  no_slash_of_uuidShape (names.uuidShape_id h)

theorem nameToUuid_capText {scope : String} (h : '/' ∉ scope.toList) (perm : String) :
    nameToUuid rt (capText scope perm) =
      if uuidShape scope then some (capText scope perm)
      else (rt.uuidForWorkspaceName scope).map fun id => capText id perm := by
  rw [nameToUuid, parse_capText h]
  rfl

theorem uuidToName_capText {nameForUuid : String → Option String} {uuid : String}
    (h : '/' ∉ uuid.toList) (perm : String) :
    uuidToName nameForUuid (capText uuid perm) =
      match nameForUuid uuid with
      | some name => capText name perm
      | none => if uuidShape uuid then capText (unknown uuid) perm else capText uuid perm := by
  simp only [uuidToName, parse_capText h, if_pos]
  rcases nameForUuid uuid with _ | name
  · have hunknown : "workspace" ++ ":<UNKNOWN-" ++ String.ofList (uuid.toList.take 8) ++ ">/" ++
        perm = capText (unknown uuid) perm := by
      simp [capText, unknown, ← String.toList_inj]
    simp only [hunknown]
  · rfl

theorem translations_of_other {nameForUuid : String → Option String} {cap : String}
    (h : ∀ scope perm, cap ≠ capText scope perm) :
    nameToUuid rt cap = some cap ∧ uuidToName nameForUuid cap = cap := by
  rw [nameToUuid, uuidToName]
  rcases hparse : parse cap with _ | ⟨resource, scope, perm⟩
  · exact ⟨rfl, rfl⟩
  · have hresource : resource ≠ "workspace" := by
      rintro rfl
      exact h scope perm (of_parse hparse).1
    simp only [if_neg hresource, and_self]

end

/-! ## Strings that are translated as they should be -/

section
variable (rt : CapRuntime) (names : Names rt)

/-- **What the translations should do to a string.**  The capability of a known workspace is
stored with the uuid and displayed with the name; what a translation gives, it leaves
alone; and so do both with the capability of every workspace and with what is no capability of a
workspace. -/
structure Faithful (cap : String) : Prop where
  roundTrip : ∀ name id perm, cap = capText name perm → rt.uuidForWorkspaceName name = some id →
    nameToUuid rt cap = some (capText id perm) ∧
      uuidToName names.nameForUuid (capText id perm) = cap
  toUuid_twice : ∀ stored, nameToUuid rt cap = some stored → nameToUuid rt stored = some stored
  toName_twice : uuidToName names.nameForUuid (uuidToName names.nameForUuid cap) =
    uuidToName names.nameForUuid cap
  wildcard : ∀ perm, cap = capText "*" perm →
    nameToUuid rt cap = some cap ∧ uuidToName names.nameForUuid cap = cap
  other : (∀ scope perm, cap ≠ capText scope perm) →
    nameToUuid rt cap = some cap ∧ uuidToName names.nameForUuid cap = cap

/-- **When they do it.**  The scope is not `*`; a known name in the string has no slash, and
has the shape of a uuid only if it is the workspace's own; and the name that a scope is
displayed as does not begin with a segment of that shape, unless a workspace has that
segment for its uuid and its name. -/
structure Translatable (cap : String) : Prop where
  not_wildcard : ∀ perm, cap ≠ capText "*" perm
  name : ∀ name perm, cap = capText name perm → (rt.uuidForWorkspaceName name).isSome →
    '/' ∉ name.toList ∧ (uuidShape name = true → rt.uuidForWorkspaceName name = some name)
  displayed : ∀ uuid perm name, '/' ∉ uuid.toList → cap = capText uuid perm →
    names.nameForUuid uuid = some name → uuidShape (firstSegment name) = true →
    names.nameForUuid (firstSegment name) = some (firstSegment name)

end

section
variable {rt : CapRuntime} {names : Names rt}

theorem nameToUuid_twice (names : Names rt) {cap stored : String}
    (h : nameToUuid rt cap = some stored) : nameToUuid rt stored = some stored := by
  by_cases hform : ∃ scope perm, parse cap = some ("workspace", scope, perm)
  · obtain ⟨scope, perm, hparse⟩ := hform
    obtain ⟨rfl, hno⟩ := of_parse hparse
    have hstored := h
    rw [nameToUuid_capText hno] at hstored
    by_cases hshape : uuidShape scope = true
    · rw [if_pos hshape] at hstored
      rw [← Option.some.inj hstored]
      rw [← Option.some.inj hstored] at h
      exact h
    · rw [if_neg hshape] at hstored
      obtain ⟨id, hid, rfl⟩ := Option.map_eq_some_iff.mp hstored
      rw [nameToUuid_capText (names.no_slash_id hid), if_pos (names.uuidShape_id hid)]
  · have hsame : nameToUuid rt cap = some cap := by
      rw [nameToUuid]
      rcases hparse : parse cap with _ | ⟨resource, scope, perm⟩
      · rfl
      · have hresource : resource ≠ "workspace" := by
          rintro rfl
          exact hform ⟨scope, perm, hparse⟩
        simp only [if_neg hresource]
    rw [hsame] at h
    rw [← Option.some.inj h]
    exact hsame

/-- A known name comes back exactly when it has no slash and is not taken for the uuid of
another workspace. -/
theorem roundTrip_iff {name id perm : String} (hid : rt.uuidForWorkspaceName name = some id) :
    (nameToUuid rt (capText name perm) = some (capText id perm) ∧
      uuidToName names.nameForUuid (capText id perm) = capText name perm) ↔
    '/' ∉ name.toList ∧ (uuidShape name = true → rt.uuidForWorkspaceName name = some name) := by
  have hnoid := names.no_slash_id hid
  have hback : uuidToName names.nameForUuid (capText id perm) = capText name perm := by
    rw [uuidToName_capText hnoid, names.name_of_uuid hid]
  rw [and_iff_left hback]
  constructor
  · intro h
    obtain ⟨hnoseg, perm', hcap, hperm⟩ := exists_capText_firstSegment name perm
    -- Whatever the scope is translated to, the permission after it stays.
    have hsame : perm' = perm := by
      rw [hcap, nameToUuid_capText hnoseg] at h
      by_cases hshape : uuidShape (firstSegment name) = true
      · rw [if_pos hshape] at h
        exact ((capText_inj hnoseg hnoid).mp (Option.some.inj h)).2
      · rw [if_neg hshape] at h
        obtain ⟨id', hid', he⟩ := Option.map_eq_some_iff.mp h
        exact ((capText_inj (names.no_slash_id hid') hnoid).mp he).2
    obtain ⟨hno, -⟩ := hperm hsame
    refine ⟨hno, fun hshape => ?_⟩
    rw [nameToUuid_capText hno, if_pos hshape] at h
    rw [hid, capText_left_inj.mp (Option.some.inj h)]
  · rintro ⟨hno, hshape⟩
    rw [nameToUuid_capText hno]
    by_cases h : uuidShape name = true
    · rw [if_pos h]
      rw [hshape h] at hid
      rw [Option.some.inj hid]
    · rw [if_neg h, hid]
      rfl

theorem uuidToName_twice {uuid perm : String} (hno : '/' ∉ uuid.toList) :
    uuidToName names.nameForUuid (uuidToName names.nameForUuid (capText uuid perm)) =
      uuidToName names.nameForUuid (capText uuid perm) ↔
    ∀ name, names.nameForUuid uuid = some name → uuidShape (firstSegment name) = true →
      names.nameForUuid (firstSegment name) = some (firstSegment name) := by
  rw [uuidToName_capText hno]
  rcases hname : names.nameForUuid uuid with _ | name
  · simp only [reduceCtorEq, false_implies, implies_true, iff_true]
    by_cases hshape : uuidShape uuid = true
    · rw [if_pos hshape, uuidToName_capText (no_slash_unknown hno)]
      rcases hunknown : names.nameForUuid (unknown uuid) with _ | name
      · simp only [not_uuidShape_unknown, Bool.false_eq_true, if_false]
      · have h := names.uuidShape_scope (no_slash_unknown hno) hunknown
        rw [not_uuidShape_unknown] at h
        cases h
    · rw [if_neg hshape, uuidToName_capText hno, hname]
      simp only [if_neg hshape]
  · simp only [Option.some.injEq, forall_eq']
    obtain ⟨hnoseg, perm', hcap, -⟩ := exists_capText_firstSegment name perm
    rw [hcap, uuidToName_capText hnoseg]
    rcases hseg : names.nameForUuid (firstSegment name) with _ | name'
    · by_cases hshape : uuidShape (firstSegment name) = true
      · rw [if_pos hshape, capText_left_inj]
        constructor
        · intro he
          rw [← he, not_uuidShape_unknown] at hshape
          cases hshape
        · intro h
          cases h hshape
      · rw [if_neg hshape]
        exact iff_of_true rfl fun h => absurd h hshape
    · have hshape := names.uuidShape_scope hnoseg hseg
      simp only [hshape, capText_left_inj, true_implies, Option.some.injEq]

/-- **A string is translated as it should be exactly when it is `Translatable`.** -/
theorem faithful_iff_translatable (cap : String) : Faithful rt names cap ↔ Translatable rt names cap := by
  constructor
  · intro h
    refine ⟨?_, ?_, ?_⟩
    · rintro perm rfl
      obtain ⟨hstored, -⟩ := h.wildcard perm rfl
      rw [nameToUuid_capText (by decide), if_neg (by decide)] at hstored
      obtain ⟨id, hid, he⟩ := Option.map_eq_some_iff.mp hstored
      have hshape := names.uuidShape_id hid
      rw [capText_left_inj.mp he, not_uuidShape_star] at hshape
      cases hshape
    · rintro name perm rfl hknown
      obtain ⟨id, hid⟩ := Option.isSome_iff_exists.mp hknown
      exact (roundTrip_iff hid).mp (h.roundTrip name id perm rfl hid)
    · rintro uuid perm name hno rfl hname
      exact (uuidToName_twice hno).mp h.toName_twice name hname
  · intro h
    refine ⟨?_, fun stored => nameToUuid_twice names, ?_, ?_, translations_of_other⟩
    · rintro name id perm rfl hid
      exact (roundTrip_iff hid).mpr (h.name name perm rfl (Option.isSome_of_mem hid))
    · by_cases hform : ∃ scope perm, cap = capText scope perm
      · obtain ⟨scope, perm, rfl⟩ := hform
        obtain ⟨hno, perm', hcap, -⟩ := exists_capText_firstSegment scope perm
        rw [hcap]
        refine (uuidToName_twice hno).mpr fun name hname => ?_
        exact h.displayed _ perm' name hno hcap hname
      · have hother : ∀ scope perm, cap ≠ capText scope perm :=
          fun scope perm he => hform ⟨scope, perm, he⟩
        obtain ⟨-, hsame⟩ := @translations_of_other rt _ _ hother
        rw [hsame, hsame]
    · intro perm he
      exact absurd he (h.not_wildcard perm)

end

/-! ## The capability of every workspace -/

/-- One workspace. -/
def oneWorkspace : CapRuntime where
  readFromFile _ := .error "no file"
  declared _ := true
  uuidForWorkspaceName name :=
    if name = "dev" then some "00000000-0000-4000-8000-000000000001" else none
  mkdirFault := none
  openFault := none

def oneName : Names oneWorkspace where
  nameForUuid uuid := if uuid = "00000000-0000-4000-8000-000000000001" then some "dev" else none
  name_of_uuid {name id} h := by
    obtain ⟨rfl, h⟩ := Option.ite_none_right_eq_some.mp h
    rw [if_pos (Option.some.inj h).symm]
  uuidShape_id {name id} h := by
    obtain ⟨-, h⟩ := Option.ite_none_right_eq_some.mp h
    rw [← Option.some.inj h]
    decide
  uuidShape_scope {scope name} _ h := by
    obtain ⟨rfl, -⟩ := Option.ite_none_right_eq_some.mp h
    decide

/-- The capability of every workspace cannot be granted: `*` is no workspace's name. -/
theorem not_faithful_wildcard :
    ¬ ∀ (rt : CapRuntime) (names : Names rt) (cap : String), Faithful rt names cap := by
  intro h
  obtain ⟨hstored, -⟩ := (h oneWorkspace oneName (capText "*" "read")).wildcard "read" rfl
  rw [nameToUuid_capText (by decide)] at hstored
  cases hstored

/-! ## The names in the store -/

section
variable {Rest : Type} {t : WorkspaceStore Rest} {dispatchToPlugin : String → Option String}

/-- Every workspace in the store has a uuid. -/
def UuidRows (t : WorkspaceStore Rest) : Prop :=
  ∀ id row, CleanId id → t.lookup (canonicalUri id) = some row → uuidShape id = true

theorem row_of_uuidForWorkspaceName (h : WellFormed t) (hplugin : NoPlugin dispatchToPlugin)
    {name id : String} (hid : uuidForWorkspaceName dispatchToPlugin t name = some id) :
    ∃ ws, CleanId id ∧ ws.name = name ∧
      t.lookup (canonicalUri id) = some (.entity "workspace" ws) := by
  obtain ⟨ws, hclean, he, hrow, hmem⟩ :=
    h.aliases _ _ (.inl ⟨name, rfl⟩) ((h.uuidForWorkspaceName hplugin).mp hid)
  obtain rfl := canonicalUri_injective (UriStore.Row.aliasTo.inj he)
  exact ⟨ws, hclean, (Workspace.byNameUri_mem_aliases.mp hmem).symm, hrow⟩

/-- The naming table that the store is. -/
def namesOfStore {rt : CapRuntime} (h : WellFormed t) (hplugin : NoPlugin dispatchToPlugin)
    (hrows : UuidRows t)
    (hrt : rt.uuidForWorkspaceName = uuidForWorkspaceName dispatchToPlugin t) : Names rt where
  nameForUuid := nameForWorkspaceUuid dispatchToPlugin t
  name_of_uuid {name id} hid := by
    rw [hrt] at hid
    obtain ⟨ws, hws, hname, hrow⟩ := row_of_uuidForWorkspaceName h hplugin hid
    rw [nameForWorkspaceUuid, (h.workspaceByUuid hplugin hws).mpr hrow, Option.map_some, hname]
  uuidShape_id {name id} hid := by
    rw [hrt] at hid
    obtain ⟨ws, hws, -, hrow⟩ := row_of_uuidForWorkspaceName h hplugin hid
    exact hrows id _ hws hrow
  uuidShape_scope {scope name} hno hname := by
    obtain ⟨ws, hws, -⟩ := Option.map_eq_some_iff.mp hname
    exact hrows scope _ hno ((h.workspaceByUuid hplugin hno).mp hws)

/-! ## Stores that are reached -/

theorem UuidRows.of_lookup {t' : WorkspaceStore Rest} (h : UuidRows t)
    (hsub : ∀ id row, CleanId id → t'.lookup (canonicalUri id) = some row →
      uuidShape id = true ∨ t.lookup (canonicalUri id) = some row) : UuidRows t' := by
  intro id row hid hrow
  rcases hsub id row hid hrow with hshape | hrow
  · exact hshape
  · exact h id row hid hrow

theorem UuidRows.writeRows (h : UuidRows t) {ws : Workspace Rest} (hid : uuidShape ws.id = true) :
    UuidRows (writeRows t ws) := by
  refine h.of_lookup fun id row hclean hrow => ?_
  have halias : canonicalUri id ∉ ws.aliases := fun hmem =>
    (Workspace.isAlias hmem).ne_canonicalUri hclean rfl
  rw [lookup_writeRows (no_slash_of_uuidShape hid), if_neg halias] at hrow
  by_cases he : canonicalUri id = canonicalUri ws.id
  · rw [canonicalUri_injective he]
    exact .inl hid
  · rw [if_neg he] at hrow
    exact .inr hrow

/-- The workspaces that are put, one by one or at boot, have uuids. -/
def PutsUuids (_ : WorkspaceStore Rest) : Act Rest → Prop
  | .put ws => uuidShape ws.id = true
  | .populate all => ∀ ws ∈ all, uuidShape ws.id = true
  | _ => True

theorem uuidRows_step {writeFile : String → Workspace Rest → Except String Unit}
    {a : Act Rest} {u : WorkspaceStore Rest} (h : UuidRows t) (hok : PutsUuids t a)
    (hs : step dispatchToPlugin writeFile t a = some u) : UuidRows u := by
  rcases a with ws | uuid | all | ⟨uri, row⟩
  · obtain ⟨-, rfl⟩ := guard_eq_some.mp hs
    rw [workspacePut_eq]
    refine UuidRows.writeRows (h.of_lookup fun id row _ hrow => ?_) hok
    exact .inr (of_lookup_cleared hrow)
  · obtain rfl := Option.some.inj hs
    exact h.of_lookup fun id row _ hrow => .inr (lookup_workspaceDeleteById.mp hrow).2.2
  · obtain ⟨-, rfl⟩ := guard_eq_some.mp hs
    have hloop : ∀ (ws : List (Workspace Rest)) (t : WorkspaceStore Rest), UuidRows t →
        (∀ w ∈ ws, uuidShape w.id = true) → UuidRows (ws.foldl WorkspaceUris.writeRows t) := by
      intro ws
      induction ws with
      | nil => exact fun t ht _ => ht
      | cons w ws ih =>
        intro t ht hall
        obtain ⟨hw, hall⟩ := List.forall_mem_cons.mp hall
        exact ih _ (ht.writeRows hw) hall
    refine hloop all _ (h.of_lookup fun id row _ hrow => ?_) hok
    exact .inr (of_lookup_deleteAllByKind hrow).1
  · simp only [step] at hs
    split at hs
    · rename_i huri
      have hne : ∀ id, canonicalUri id ≠ uri := by
        rintro id rfl
        rw [stripPrefix_canonicalUri] at huri
        cases huri
      rcases row with _ | row
      · obtain rfl := Option.some.inj hs
        refine h.of_lookup fun id row' _ hrow => .inr ?_
        rwa [UriStore.delete, Ets.lookup_delete_of_ne _ (hne id)] at hrow
      · obtain rfl := Option.some.inj hs
        refine h.of_lookup fun id row' _ hrow => .inr ?_
        rwa [Ets.lookup_insert_of_ne _ _ (hne id)] at hrow
    · cases hs

/-- **Every store that is reached with workspaces of uuids is a naming table.** -/
theorem names_of_reaches {writeFile : String → Workspace Rest → Except String Unit}
    {rt : CapRuntime} (hplugin : NoPlugin dispatchToPlugin)
    (h : Reaches (step dispatchToPlugin writeFile) PutsUuids Ets.empty t)
    (hrt : rt.uuidForWorkspaceName = uuidForWorkspaceName dispatchToPlugin t) :
    ∃ names : Names rt, names.nameForUuid = nameForWorkspaceUuid dispatchToPlugin t := by
  have hempty : UuidRows (Ets.empty : WorkspaceStore Rest) := by
    intro id row _ hrow
    cases hrow
  have hrows : UuidRows t := h.invariant hempty fun t a u ht hok hs => uuidRows_step ht hok hs
  exact ⟨namesOfStore (wellFormed_reaches hplugin h.anyStep) hplugin hrows hrt, rfl⟩

def web : Workspace Unit :=
  ⟨"00000000-0000-4000-8000-000000000001", "web", ["/srv/web"], [⟨some "oc_dev", some "cli_app"⟩], none, ()⟩

theorem names_of_reaches_web : ∃ (t : WorkspaceStore Unit) (rt : CapRuntime) (names : Names rt),
    uuidForWorkspaceName (fun _ => none) t "web" = some web.id ∧
      names.nameForUuid = nameForWorkspaceUuid (fun _ => none) t := by
  have hstep : step (fun _ => none) (fun _ _ => .ok ()) Ets.empty (.put web) =
      some (workspacePut (fun _ => none) (fun _ _ => .ok ()) Ets.empty web).2 := by
    have hid : CleanId web.id := by decide
    rw [step, if_pos hid]
  have hreach : Reaches (step (fun _ => none) fun _ _ => .ok ()) PutsUuids Ets.empty
      (workspacePut (fun _ => none) (fun _ _ => .ok ()) Ets.empty web).2 :=
    ⟨_, Run.cons (show PutsUuids _ (.put web) by unfold PutsUuids; decide) hstep .nil⟩
  obtain ⟨names, hnames⟩ := names_of_reaches (fun _ => rfl) hreach
    (show ({ oneWorkspace with uuidForWorkspaceName := uuidForWorkspaceName (fun _ => none) _ } :
      CapRuntime).uuidForWorkspaceName = _ from rfl)
  exact ⟨_, _, names, by decide +kernel, hnames⟩

end

end UuidTranslator
end Esr
