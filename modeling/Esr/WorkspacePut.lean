import Esr.WorkspaceUris

/-! # What `workspace_put/1` promises

`Consistent` is the store after a put as its callers want it: the workspace is
found by its name and by each of its chats, nothing of its former self is left,
the workspace it displaced is gone, and every other lookup answers as before.

`workspace_put/1` drops the answer of the aliases it puts, so a chat that is bound
to another workspace stays there.  `Fits` is the condition on the store before the
put, and `consistent_iff_fits` says that it is the exact one.
-/
namespace Esr
namespace WorkspaceUris
open UriStore

variable {Rest : Type}

section Routes
variable (dispatchToPlugin : String → Option String)

/-- The workspace found under a name. -/
def nameRoute (t : WorkspaceStore Rest) (name : String) : Option (Workspace Rest) :=
  (uuidForWorkspaceName dispatchToPlugin t name).bind (workspaceByUuid dispatchToPlugin t)

/-- The workspace found for a chat. -/
def chatRoute (t : WorkspaceStore Rest) (key : String × String) : Option (Workspace Rest) :=
  (uuidForChat dispatchToPlugin t key).bind (workspaceByUuid dispatchToPlugin t)

/-- What a put of `ws` over the store `t` should leave. -/
structure Consistent (t : WorkspaceStore Rest) (ws : Workspace Rest) (t' : WorkspaceStore Rest) :
    Prop where
  name : nameRoute dispatchToPlugin t' ws.name = some ws
  chats : ∀ key ∈ ws.chatKeys, chatRoute dispatchToPlugin t' key = some ws
  formerName : ∀ old, workspaceByUuid dispatchToPlugin t ws.id = some old → old.name ≠ ws.name →
    uuidForWorkspaceName dispatchToPlugin t' old.name ≠ some ws.id
  formerChats : ∀ old, workspaceByUuid dispatchToPlugin t ws.id = some old →
    ∀ key ∈ old.chatKeys, key ∉ ws.chatKeys →
      uuidForChat dispatchToPlugin t' key ≠ some ws.id
  displaced : ∀ id, displaced dispatchToPlugin t ws = some id →
    t'.lookup (canonicalUri id) = none ∧ ∀ uri, t'.lookup uri ≠ some (.aliasTo (canonicalUri id))
  otherNames : ∀ name, name ≠ ws.name →
    uuidForWorkspaceName dispatchToPlugin t name ≠ some ws.id →
    nameRoute dispatchToPlugin t' name = nameRoute dispatchToPlugin t name
  otherChats : ∀ key, key ∉ ws.chatKeys →
    (∀ old, workspaceByUuid dispatchToPlugin t ws.id = some old → key ∉ old.chatKeys) →
    (∀ id w, WorkspaceUris.displaced dispatchToPlugin t ws = some id →
      workspaceByUuid dispatchToPlugin t id = some w → key ∉ w.chatKeys) →
    chatRoute dispatchToPlugin t' key = chatRoute dispatchToPlugin t key

/-- The alias is the workspace's own, or goes with the workspace displaced. -/
def Yields (t : WorkspaceStore Rest) (ws : Workspace Rest) (row : Row String (Workspace Rest)) :
    Prop :=
  row = .aliasTo (canonicalUri ws.id) ∨
    ∃ id, displaced dispatchToPlugin t ws = some id ∧ row = .aliasTo (canonicalUri id)

/-- When a put of `ws` does what it should: its chats are bound to no third
workspace, neither is its former name, and no other chat is written as the same URI
as one of the chats involved, unless that changes nothing. -/
structure Fits (t : WorkspaceStore Rest) (ws : Workspace Rest) : Prop where
  chats : ∀ key ∈ ws.chatKeys, ∀ row, t.lookup (byChatUri key) = some row →
    Yields dispatchToPlugin t ws row
  formerName : ∀ old, workspaceByUuid dispatchToPlugin t ws.id = some old → old.name ≠ ws.name →
    ∀ row, t.lookup (byNameUri old.name) = some row → row = .aliasTo (canonicalUri ws.id)
  formerChats : ∀ old, workspaceByUuid dispatchToPlugin t ws.id = some old →
    ∀ key ∈ old.chatKeys, key ∉ ws.chatKeys → byChatUri key ∉ ws.chatKeys.map byChatUri
  otherChats : ∀ key, key ∉ ws.chatKeys →
    (∀ old, workspaceByUuid dispatchToPlugin t ws.id = some old → key ∉ old.chatKeys) →
    (∀ id w, displaced dispatchToPlugin t ws = some id →
      workspaceByUuid dispatchToPlugin t id = some w → key ∉ w.chatKeys) →
    (byChatUri key ∈ ws.chatKeys.map byChatUri ∨
      ∃ row, t.lookup (byChatUri key) = some row ∧ Yields dispatchToPlugin t ws row) →
    byChatUri key ∈ ws.chatKeys.map byChatUri ∧ chatRoute dispatchToPlugin t key = some ws

end Routes

section Put
variable {t : WorkspaceStore Rest} {ws : Workspace Rest}
  {dispatchToPlugin : String → Option String}

theorem WellFormed.route_eq_some (h : WellFormed t) (hplugin : NoPlugin dispatchToPlugin)
    {uri : String} (huri : IsAlias uri) {w : Workspace Rest} :
    ((resolve dispatchToPlugin t uri).bind (Esr.stripPrefix "esr://localhost/workspaces/")).bind
        (WorkspaceUris.workspaceByUuid dispatchToPlugin t) = some w ↔
      t.lookup uri = some (.aliasTo (canonicalUri w.id)) ∧
        t.lookup (canonicalUri w.id) = some (.entity "workspace" w) := by
  rw [Option.bind_eq_some_iff]
  constructor
  · intro ⟨id, hres, hw⟩
    have hrow := (h.resolve_alias hplugin huri).mp hres
    obtain ⟨w', hid, he, hent, _⟩ := h.aliases uri _ huri hrow
    obtain rfl := canonicalUri_injective (Row.aliasTo.inj he)
    have hent' := (h.workspaceByUuid hplugin hid).mp hw
    rw [hent] at hent'
    obtain rfl := (Row.entity.inj (Option.some.inj hent')).2
    exact ⟨hrow, hent⟩
  · intro ⟨hrow, hent⟩
    obtain ⟨w', hid, he, _, _⟩ := h.aliases uri _ huri hrow
    have hclean : CleanId w.id := canonicalUri_injective (Row.aliasTo.inj he) ▸ hid
    exact ⟨w.id, (h.resolve_alias hplugin huri).mpr hrow,
      (h.workspaceByUuid hplugin hclean).mpr hent⟩

theorem WellFormed.nameRoute_eq_some (h : WellFormed t) (hplugin : NoPlugin dispatchToPlugin)
    {name : String} {w : Workspace Rest} :
    nameRoute dispatchToPlugin t name = some w ↔
      t.lookup (byNameUri name) = some (.aliasTo (canonicalUri w.id)) ∧
        t.lookup (canonicalUri w.id) = some (.entity "workspace" w) :=
  h.route_eq_some hplugin (Or.inl ⟨name, rfl⟩)

theorem WellFormed.chatRoute_eq_some (h : WellFormed t) (hplugin : NoPlugin dispatchToPlugin)
    {key : String × String} {w : Workspace Rest} :
    chatRoute dispatchToPlugin t key = some w ↔
      t.lookup (byChatUri key) = some (.aliasTo (canonicalUri w.id)) ∧
        t.lookup (canonicalUri w.id) = some (.entity "workspace" w) :=
  h.route_eq_some hplugin (Or.inr ⟨key, rfl⟩)

/-! ## The rows after a put -/

section Rows
variable (h : WellFormed t) (hplugin : NoPlugin dispatchToPlugin)
  (writeFile : String → Workspace Rest → Except String Unit) (hid : CleanId ws.id)

include hid in
theorem lookup_put_alias {uri : String} (huri : IsAlias uri) :
    (workspacePut dispatchToPlugin writeFile t ws).2.lookup uri =
      if uri ∈ ws.aliases then
        ((cleared dispatchToPlugin t ws).lookup uri).or (some (.aliasTo (canonicalUri ws.id)))
      else (cleared dispatchToPlugin t ws).lookup uri := by
  rw [workspacePut_eq, lookup_writeRows hid, if_neg (huri.ne_canonicalUri hid)]

include hid in
theorem lookup_put_canonicalUri {id : String} (hclean : CleanId id) :
    (workspacePut dispatchToPlugin writeFile t ws).2.lookup (canonicalUri id) =
      if id = ws.id then some (.entity "workspace" ws)
      else (cleared dispatchToPlugin t ws).lookup (canonicalUri id) := by
  rw [workspacePut_eq, lookup_writeRows hid,
    if_neg fun hmem => (Workspace.isAlias hmem).ne_canonicalUri hclean rfl]
  by_cases he : id = ws.id
  · rw [if_pos (congrArg canonicalUri he), if_pos he]
  · rw [if_neg fun hc => he (canonicalUri_injective hc), if_neg he]

include h hplugin hid in
theorem lookup_put_of_yields {uri : String} (hmem : uri ∈ ws.aliases)
    (hyields : ∀ row, t.lookup uri = some row → Yields dispatchToPlugin t ws row) :
    (workspacePut dispatchToPlugin writeFile t ws).2.lookup uri =
      some (.aliasTo (canonicalUri ws.id)) := by
  rw [lookup_put_alias writeFile hid (Workspace.isAlias hmem), if_pos hmem]
  cases hrow : (cleared dispatchToPlugin t ws).lookup uri with
  | none => rfl
  | some row =>
    obtain ⟨hrow, hs⟩ := (lookup_cleared h hplugin hid).mp hrow
    rcases hyields row hrow with rfl | ⟨id, hdisp, rfl⟩
    · rfl
    · exact absurd rfl (hs.displaced id hdisp).2

include h hplugin hid in
theorem route_put_of_survives {uri : String} (huri : IsAlias uri) (hmem : uri ∉ ws.aliases)
    (hkept : ∀ row, t.lookup uri = some row →
      Survives dispatchToPlugin t ws uri row ∧ row ≠ .aliasTo (canonicalUri ws.id))
    {w : Workspace Rest} :
    ((workspacePut dispatchToPlugin writeFile t ws).2.lookup uri =
        some (.aliasTo (canonicalUri w.id)) ∧
      (workspacePut dispatchToPlugin writeFile t ws).2.lookup (canonicalUri w.id) =
        some (.entity "workspace" w)) ↔
      t.lookup uri = some (.aliasTo (canonicalUri w.id)) ∧
        t.lookup (canonicalUri w.id) = some (.entity "workspace" w) := by
  rw [lookup_put_alias writeFile hid huri, if_neg hmem, lookup_cleared h hplugin hid]
  have hsame : t.lookup uri = some (.aliasTo (canonicalUri w.id)) →
      ((workspacePut dispatchToPlugin writeFile t ws).2.lookup (canonicalUri w.id) =
          some (.entity "workspace" w) ↔
        t.lookup (canonicalUri w.id) = some (.entity "workspace" w)) := by
    intro hrow
    obtain ⟨hs, hne⟩ := hkept _ hrow
    obtain ⟨w', hclean, he, _, _⟩ := h.aliases uri _ huri hrow
    rw [← canonicalUri_injective (Row.aliasTo.inj he)] at hclean
    have hid' : w.id ≠ ws.id := fun he' => hne (by rw [he'])
    rw [lookup_put_canonicalUri writeFile hid hclean, if_neg hid', lookup_cleared h hplugin hid]
    refine ⟨And.left, fun hent => ⟨hent, ?_, ?_, ?_⟩⟩
    · intro id hdisp
      exact ⟨fun he' => (hs.displaced id hdisp).2 (by rw [he']), by simp⟩
    · intro old _ _ he'
      exact (show IsAlias (byNameUri old.name) from Or.inl ⟨_, rfl⟩).ne_canonicalUri hclean he'.symm
    · intro he'
      cases he'
  constructor
  · intro ⟨⟨hrow, _⟩, hent⟩
    exact ⟨hrow, (hsame hrow).mp hent⟩
  · intro ⟨hrow, hent⟩
    exact ⟨⟨hrow, (hkept _ hrow).1⟩, (hsame hrow).mpr hent⟩

include h hplugin hid in
theorem nameRoute_put (hfits : Fits dispatchToPlugin t ws) {name : String} (hname : name ≠ ws.name)
    (hother : uuidForWorkspaceName dispatchToPlugin t name ≠ some ws.id) :
    nameRoute dispatchToPlugin (workspacePut dispatchToPlugin writeFile t ws).2 name =
      nameRoute dispatchToPlugin t name := by
  have hput := wellFormed_workspacePut h hplugin writeFile hid
  have hmem : byNameUri name ∉ ws.aliases :=
    fun hm => hname (Workspace.byNameUri_mem_aliases.mp hm)
  have hnot : ∀ row, t.lookup (byNameUri name) = some row →
      row ≠ .aliasTo (canonicalUri ws.id) := by
    intro row hrow he
    exact hother ((h.uuidForWorkspaceName hplugin).mpr (he ▸ hrow))
  refine Option.ext fun w => ?_
  rw [hput.nameRoute_eq_some hplugin, h.nameRoute_eq_some hplugin]
  refine route_put_of_survives h hplugin writeFile hid (Or.inl ⟨_, rfl⟩) hmem fun row hrow => ?_
  refine ⟨⟨fun id hdisp => ?_, fun old hold hne he => ?_, fun he => ?_⟩, hnot row hrow⟩
  · -- the displaced workspace is known under the name of the new one only
    obtain ⟨hlookup, _⟩ := (h.displaced_eq_some hplugin).mp hdisp
    obtain ⟨d, hclean, hd, hent, hdmem⟩ := h.aliases _ _ (Or.inl ⟨_, rfl⟩) hlookup
    refine ⟨fun he => ?_, fun he => ?_⟩
    · rw [Row.aliasTo.inj hd] at he
      exact (show IsAlias (byNameUri name) from Or.inl ⟨_, rfl⟩).ne_canonicalUri hclean he
    · obtain ⟨d', _, hd', hent', hdmem'⟩ := h.aliases _ _ (Or.inl ⟨_, rfl⟩) hrow
      have hsame : d = d' := by
        rw [he, hd] at hd'
        rw [Row.aliasTo.inj hd', hent'] at hent
        exact (Row.entity.inj (Option.some.inj hent)).2.symm
      rw [← hsame] at hdmem'
      rw [Workspace.byNameUri_mem_aliases] at hdmem hdmem'
      exact hname (hdmem'.trans hdmem.symm)
  · have hn : name = old.name := byNameUri_injective he
    exact hnot row hrow (hfits.formerName old hold hne row (hn ▸ hrow))
  · exact absurd he (hnot row hrow)

include h hplugin hid in
theorem chatRoute_put (hfits : Fits dispatchToPlugin t ws) {key : String × String}
    (hkey : key ∉ ws.chatKeys)
    (hold : ∀ old, WorkspaceUris.workspaceByUuid dispatchToPlugin t ws.id = some old →
      key ∉ old.chatKeys)
    (hdisplaced : ∀ id w, displaced dispatchToPlugin t ws = some id →
      WorkspaceUris.workspaceByUuid dispatchToPlugin t id = some w → key ∉ w.chatKeys) :
    chatRoute dispatchToPlugin (workspacePut dispatchToPlugin writeFile t ws).2 key =
      chatRoute dispatchToPlugin t key := by
  have hput := wellFormed_workspacePut h hplugin writeFile hid
  have huri : IsAlias (byChatUri key) := Or.inr ⟨_, rfl⟩
  by_cases htouched : byChatUri key ∈ ws.chatKeys.map byChatUri ∨
      ∃ row, t.lookup (byChatUri key) = some row ∧ Yields dispatchToPlugin t ws row
  · obtain ⟨hmem, hroute⟩ := hfits.otherChats key hkey hold hdisplaced htouched
    have hrow := ((h.chatRoute_eq_some hplugin).mp hroute).1
    rw [hroute, hput.chatRoute_eq_some hplugin,
      lookup_put_of_yields h hplugin writeFile hid (Workspace.byChatUri_mem_aliases.mpr hmem) ?_,
      lookup_put_canonicalUri writeFile hid hid, if_pos rfl]
    · exact ⟨rfl, rfl⟩
    · intro row hrow'
      exact Or.inl (Option.some.inj (hrow'.symm.trans hrow))
  · have hmem : byChatUri key ∉ ws.aliases :=
      fun hm => htouched (Or.inl (Workspace.byChatUri_mem_aliases.mp hm))
    have hyields : ∀ row, t.lookup (byChatUri key) = some row →
        ¬Yields dispatchToPlugin t ws row :=
      fun row hrow hy => htouched (Or.inr ⟨row, hrow, hy⟩)
    refine Option.ext fun w => ?_
    rw [hput.chatRoute_eq_some hplugin, h.chatRoute_eq_some hplugin]
    refine route_put_of_survives h hplugin writeFile hid huri hmem fun row hrow => ?_
    refine ⟨⟨fun id hdisp => ⟨fun he => ?_, fun he => ?_⟩, fun old _ _ he => ?_, fun he => ?_⟩,
      fun he => hyields row hrow (Or.inl he)⟩
    · obtain ⟨hlookup, _⟩ := (h.displaced_eq_some hplugin).mp hdisp
      obtain ⟨d, hclean, hd, _, _⟩ := h.aliases _ _ (Or.inl ⟨_, rfl⟩) hlookup
      rw [Row.aliasTo.inj hd] at he
      exact huri.ne_canonicalUri hclean he
    · exact hyields row hrow (Or.inr ⟨id, hdisp, he⟩)
    · exact byNameUri_ne_byChatUri old.name key he.symm
    · exact absurd (Or.inl he) (hyields row hrow)

include h hplugin hid in
theorem consistent_of_fits (hfits : Fits dispatchToPlugin t ws) :
    Consistent dispatchToPlugin t ws (workspacePut dispatchToPlugin writeFile t ws).2 := by
  have hput := wellFormed_workspacePut h hplugin writeFile hid
  have hentity : (workspacePut dispatchToPlugin writeFile t ws).2.lookup (canonicalUri ws.id) =
      some (.entity "workspace" ws) := by
    rw [lookup_put_canonicalUri writeFile hid hid, if_pos rfl]
  constructor
  · rw [hput.nameRoute_eq_some hplugin]
    refine ⟨lookup_put_of_yields h hplugin writeFile hid List.mem_cons_self ?_, hentity⟩
    intro row hrow
    obtain ⟨w, _, he, _, _⟩ := h.aliases _ row (Or.inl ⟨_, rfl⟩) hrow
    by_cases hsame : w.id = ws.id
    · exact Or.inl (by rw [he, hsame])
    · exact Or.inr ⟨w.id, (h.displaced_eq_some hplugin).mpr ⟨he ▸ hrow, hsame⟩, he⟩
  · intro key hkey
    rw [hput.chatRoute_eq_some hplugin]
    refine ⟨lookup_put_of_yields h hplugin writeFile hid ?_ (hfits.chats key hkey), hentity⟩
    exact List.mem_cons_of_mem _ (List.mem_map_of_mem hkey)
  · intro old hold hne hres
    rw [hput.uuidForWorkspaceName hplugin, lookup_put_alias writeFile hid (Or.inl ⟨_, rfl⟩),
      if_neg fun hm => hne (Workspace.byNameUri_mem_aliases.mp hm),
      lookup_cleared h hplugin hid] at hres
    exact hres.2.formerName old hold hne rfl
  · intro old hold key hkey hnot hres
    have hmem := hfits.formerChats old hold key hkey hnot
    rw [hput.uuidForChat hplugin, lookup_put_alias writeFile hid (Or.inr ⟨_, rfl⟩),
      if_neg fun hm => hmem (Workspace.byChatUri_mem_aliases.mp hm),
      lookup_cleared h hplugin hid] at hres
    have hnone := hres.2.formerChat rfl
    rw [stripPrefix_eq_some.mpr (byChatUri_eq key)] at hnone
    cases hnone
  · intro id hdisp
    obtain ⟨hlookup, hne⟩ := (h.displaced_eq_some hplugin).mp hdisp
    obtain ⟨d, hclean, hd, _, _⟩ := h.aliases _ _ (Or.inl ⟨_, rfl⟩) hlookup
    rw [← canonicalUri_injective (Row.aliasTo.inj hd)] at hclean
    have hgone : ∀ uri, (cleared dispatchToPlugin t ws).lookup uri ≠
        some (.aliasTo (canonicalUri id)) := by
      intro uri hrow
      exact (((lookup_cleared h hplugin hid).mp hrow).2.displaced id hdisp).2 rfl
    constructor
    · rw [lookup_put_canonicalUri writeFile hid hclean, if_neg hne,
        Option.eq_none_iff_forall_ne_some]
      intro row hrow
      exact (((lookup_cleared h hplugin hid).mp hrow).2.displaced id hdisp).1 rfl
    · intro uri hrow
      rw [workspacePut_eq, lookup_writeRows hid] at hrow
      split at hrow
      · cases hc : (cleared dispatchToPlugin t ws).lookup uri with
        | none =>
          rw [hc, Option.none_or, Option.some.injEq, Row.aliasTo.injEq] at hrow
          exact hne (canonicalUri_injective hrow).symm
        | some row =>
          rw [hc, Option.some_or, Option.some.injEq] at hrow
          exact hgone uri (hrow ▸ hc)
      · split at hrow
        · cases hrow
        · exact hgone uri hrow
  · exact fun name hname hother => nameRoute_put h hplugin writeFile hid hfits hname hother
  · exact fun key hkey hold hdisp => chatRoute_put h hplugin writeFile hid hfits hkey hold hdisp

include h hplugin hid in
theorem Consistent.yields
    (hc : Consistent dispatchToPlugin t ws (workspacePut dispatchToPlugin writeFile t ws).2)
    {key : String × String} (hkey : byChatUri key ∈ ws.chatKeys.map byChatUri)
    {row : Row String (Workspace Rest)} (hrow : t.lookup (byChatUri key) = some row) :
    Yields dispatchToPlugin t ws row := by
  have hput := wellFormed_workspacePut h hplugin writeFile hid
  obtain ⟨key', hkey', huri⟩ := List.mem_map.mp hkey
  have hafter := ((hput.chatRoute_eq_some hplugin).mp (hc.chats key' hkey')).1
  by_cases hyields : Yields dispatchToPlugin t ws row
  · exact hyields
  · have hsurvives : (cleared dispatchToPlugin t ws).lookup (byChatUri key) = some row := by
      rw [lookup_cleared h hplugin hid]
      refine ⟨hrow, fun id hdisp => ⟨fun he => ?_, fun he => ?_⟩, fun old _ _ he => ?_,
        fun he => absurd (Or.inl he) hyields⟩
      · obtain ⟨hlookup, _⟩ := (h.displaced_eq_some hplugin).mp hdisp
        obtain ⟨d, hclean, hd, _, _⟩ := h.aliases _ _ (Or.inl ⟨_, rfl⟩) hlookup
        rw [Row.aliasTo.inj hd] at he
        exact (show IsAlias (byChatUri key) from Or.inr ⟨_, rfl⟩).ne_canonicalUri hclean he
      · exact hyields (Or.inr ⟨id, hdisp, he⟩)
      · exact byNameUri_ne_byChatUri old.name key he.symm
    rw [huri, lookup_put_alias writeFile hid (Or.inr ⟨_, rfl⟩),
      if_pos (Workspace.byChatUri_mem_aliases.mpr hkey), hsurvives, Option.some_or] at hafter
    exact absurd (Or.inl (Option.some.inj hafter)) hyields

include h hplugin hid in
theorem fits_of_consistent
    (hc : Consistent dispatchToPlugin t ws (workspacePut dispatchToPlugin writeFile t ws).2) :
    Fits dispatchToPlugin t ws := by
  have hput := wellFormed_workspacePut h hplugin writeFile hid
  -- a chat written as one of the workspace's is its own after the put
  have hshared : ∀ key, byChatUri key ∈ ws.chatKeys.map byChatUri →
      (workspacePut dispatchToPlugin writeFile t ws).2.lookup (byChatUri key) =
        some (.aliasTo (canonicalUri ws.id)) := by
    intro key hkey
    exact lookup_put_of_yields h hplugin writeFile hid (Workspace.byChatUri_mem_aliases.mpr hkey)
      fun row hrow => hc.yields h hplugin writeFile hid hkey hrow
  constructor
  · intro key hkey row hrow
    exact hc.yields h hplugin writeFile hid (List.mem_map_of_mem hkey) hrow
  · intro old hold hne row hrow
    obtain ⟨w, _, rfl, hent, _⟩ := h.aliases _ row (Or.inl ⟨_, rfl⟩) hrow
    by_cases hsame : w.id = ws.id
    · rw [hsame]
    · have hres : uuidForWorkspaceName dispatchToPlugin t old.name ≠ some ws.id := by
        intro he
        rw [h.uuidForWorkspaceName hplugin, hrow, Option.some.injEq, Row.aliasTo.injEq] at he
        exact hsame (canonicalUri_injective he)
      have hroute := hc.otherNames old.name hne hres
      rw [(h.nameRoute_eq_some hplugin).mpr ⟨hrow, hent⟩, hput.nameRoute_eq_some hplugin,
        lookup_put_alias writeFile hid (Or.inl ⟨_, rfl⟩),
        if_neg fun hm => hne (Workspace.byNameUri_mem_aliases.mp hm),
        lookup_cleared h hplugin hid] at hroute
      exact absurd rfl (hroute.1.2.formerName old hold hne)
  · intro old hold key hkey hnot hmem
    refine hc.formerChats old hold key hkey hnot ?_
    rw [hput.uuidForChat hplugin]
    exact hshared key hmem
  · intro key hkey hold hdisp htouched
    have hsame := hc.otherChats key hkey hold hdisp
    by_cases hmem : byChatUri key ∈ ws.chatKeys.map byChatUri
    · refine ⟨hmem, ?_⟩
      rw [← hsame, hput.chatRoute_eq_some hplugin, lookup_put_canonicalUri writeFile hid hid,
        if_pos rfl]
      exact ⟨hshared key hmem, rfl⟩
    · -- the chat led to the workspace, or to the one displaced, and leads nowhere now
      obtain ⟨row, hrow, hyields⟩ := htouched.resolve_left hmem
      obtain ⟨w, _, rfl, hent, _⟩ := h.aliases _ row (Or.inr ⟨_, rfl⟩) hrow
      rw [(h.chatRoute_eq_some hplugin).mpr ⟨hrow, hent⟩, hput.chatRoute_eq_some hplugin,
        lookup_put_alias writeFile hid (Or.inr ⟨_, rfl⟩),
        if_neg fun hm => hmem (Workspace.byChatUri_mem_aliases.mp hm),
        lookup_cleared h hplugin hid] at hsame
      obtain ⟨⟨_, hs⟩, _⟩ := hsame
      rcases hyields with he | ⟨id, hd, he⟩
      · have hnone := hs.formerChat he
        rw [stripPrefix_eq_some.mpr (byChatUri_eq key)] at hnone
        cases hnone
      · exact absurd he (hs.displaced id hd).2

theorem fits_of_noSlash
    (hslash : ∀ w, (w = ws ∨ t.lookup (canonicalUri w.id) = some (.entity "workspace" w)) →
      ∀ key ∈ w.chatKeys, '/' ∉ key.1.toList ∧ '/' ∉ key.2.toList)
    (h : WellFormed t) (hplugin : NoPlugin dispatchToPlugin) (hid : CleanId ws.id)
    (hchats : ∀ key ∈ ws.chatKeys, ∀ row, t.lookup (byChatUri key) = some row →
      Yields dispatchToPlugin t ws row)
    (hname : ∀ old, WorkspaceUris.workspaceByUuid dispatchToPlugin t ws.id = some old →
      old.name ≠ ws.name → ∀ row, t.lookup (byNameUri old.name) = some row →
      row = .aliasTo (canonicalUri ws.id)) : Fits dispatchToPlugin t ws := by
  have hshared : ∀ w, (w = ws ∨ t.lookup (canonicalUri w.id) = some (.entity "workspace" w)) →
      ∀ key, byChatUri key ∈ w.chatKeys.map byChatUri → key ∈ w.chatKeys := by
    intro w hw key hkey
    obtain ⟨key', hkey', huri⟩ := List.mem_map.mp hkey
    obtain ⟨hcid, haid⟩ := hslash w hw key' hkey'
    rw [byChatUri_unique hcid haid huri.symm]
    exact hkey'
  refine ⟨hchats, hname, fun old hold key hkey hnot hmem => ?_,
    fun key hkey hold hdisp htouched => ?_⟩
  · exact hnot (hshared ws (Or.inl rfl) key hmem)
  · rcases htouched with hmem | ⟨row, hrow, hyields⟩
    · exact absurd (hshared ws (Or.inl rfl) key hmem) hkey
    · obtain ⟨w, hclean, rfl, hent, hmem⟩ := h.aliases _ row (Or.inr ⟨_, rfl⟩) hrow
      have hin := hshared w (Or.inr hent) key (Workspace.byChatUri_mem_aliases.mp hmem)
      rcases hyields with he | ⟨id, hd, he⟩
      · have hsame := canonicalUri_injective (Row.aliasTo.inj he)
        refine absurd hin (hold w ?_)
        rw [h.workspaceByUuid hplugin hid, ← hsame]
        exact hent
      · obtain rfl := canonicalUri_injective (Row.aliasTo.inj he)
        exact absurd hin (hdisp _ w hd ((h.workspaceByUuid hplugin hclean).mpr hent))

end Rows
end Put

/-- **When a put is consistent**, for every store the facade can reach. -/
theorem consistent_iff_fits {dispatchToPlugin : String → Option String}
    {writeFile : String → Workspace Rest → Except String Unit} {t : WorkspaceStore Rest}
    {ws : Workspace Rest} (hplugin : NoPlugin dispatchToPlugin)
    (h : Reaches (step dispatchToPlugin writeFile) anyStep Ets.empty t) (hid : CleanId ws.id) :
    Consistent dispatchToPlugin t ws (workspacePut dispatchToPlugin writeFile t ws).2 ↔
      Fits dispatchToPlugin t ws := by
  have hwf := wellFormed_reaches hplugin h
  exact ⟨fits_of_consistent hwf hplugin writeFile hid, consistent_of_fits hwf hplugin writeFile hid⟩

/-! ## A rename, and a chat that is taken -/

/-- A workspace that is only in memory. -/
def inMemory (id name : String) (chat : String) : Workspace Unit :=
  ⟨id, name, ["/srv/" ++ name], [⟨some chat, some "cli_app"⟩], none, ()⟩

/-- The store with one workspace. -/
def oneWorkspace : WorkspaceStore Unit :=
  (workspacePut (fun _ => none) (fun _ _ => .ok ()) Ets.empty (inMemory "w1" "web" "oc_dev")).2

theorem reaches_oneWorkspace :
    Reaches (step (fun _ => none) fun _ _ => .ok ()) anyStep Ets.empty oneWorkspace := by
  have hstep : step (fun _ => none) (fun _ _ => .ok ()) Ets.empty
      (.put (inMemory "w1" "web" "oc_dev")) = some oneWorkspace := by
    have hid : CleanId (inMemory "w1" "web" "oc_dev").id := by decide
    rw [step, if_pos hid]
    rfl
  exact ⟨_, Run.cons trivial hstep .nil⟩

theorem tab2list_oneWorkspace : oneWorkspace.tab2list =
    [(byChatUri ("oc_dev", "cli_app"), .aliasTo (canonicalUri "w1")),
      (byNameUri "web", .aliasTo (canonicalUri "w1")),
      (canonicalUri "w1", .entity "workspace" (inMemory "w1" "web" "oc_dev"))] := by
  decide +kernel

/-- The workspace takes another name and moves to another chat. -/
theorem consistent_rename :
    Consistent (fun _ => none) oneWorkspace (inMemory "w1" "site" "oc_ops")
      (workspacePut (fun _ => none) (fun _ _ => .ok ()) oneWorkspace
        (inMemory "w1" "site" "oc_ops")).2 := by
  have hplugin : NoPlugin fun _ => none := fun _ => rfl
  have hwf : WellFormed oneWorkspace := wellFormed_reaches hplugin reaches_oneWorkspace
  refine (consistent_iff_fits hplugin reaches_oneWorkspace (by decide)).mpr
    (fits_of_noSlash ?_ hwf hplugin (by decide) ?_ ?_)
  · intro w hw
    have hcases : w = inMemory "w1" "site" "oc_ops" ∨ w = inMemory "w1" "web" "oc_dev" := by
      rcases hw with hw | hw
      · exact Or.inl hw
      · rw [← Ets.mem_tab2list, tab2list_oneWorkspace] at hw
        simp only [List.mem_cons, Prod.mk.injEq, Row.entity.injEq, List.not_mem_nil, or_false,
          reduceCtorEq, and_false, false_or] at hw
        exact Or.inr hw.2.2
    rcases hcases with rfl | rfl
    · decide
    · decide
  · intro key hkey row hrow
    obtain rfl := List.mem_singleton.mp hkey
    have hnone : oneWorkspace.lookup (byChatUri ("oc_ops", "cli_app")) = none := by decide +kernel
    rw [hnone] at hrow
    cases hrow
  · intro old hold _ row hrow
    have hweb : workspaceByUuid (fun _ => none) oneWorkspace "w1" =
        some (inMemory "w1" "web" "oc_dev") := by decide +kernel
    obtain rfl := Option.some.inj (hold.symm.trans hweb)
    have hrow' : oneWorkspace.lookup (byNameUri "web") = some (.aliasTo (canonicalUri "w1")) := by
      decide +kernel
    exact Option.some.inj (hrow.symm.trans hrow')

/-- **A chat that another workspace has** stays with it, and the put says ok. -/
theorem not_consistent_chat_taken :
    ¬∀ (Rest : Type) (dispatchToPlugin : String → Option String)
      (writeFile : String → Workspace Rest → Except String Unit) (t : WorkspaceStore Rest)
      (ws : Workspace Rest), NoPlugin dispatchToPlugin →
      Reaches (step dispatchToPlugin writeFile) anyStep Ets.empty t → CleanId ws.id →
      (workspacePut dispatchToPlugin writeFile t ws).1 = .ok () →
      Consistent dispatchToPlugin t ws (workspacePut dispatchToPlugin writeFile t ws).2 := by
  intro h
  have hc := h Unit (fun _ => none) (fun _ _ => .ok ()) oneWorkspace (inMemory "w2" "docs" "oc_dev")
    (fun _ => rfl) reaches_oneWorkspace (by decide) rfl
  have hroute := hc.chats ("oc_dev", "cli_app") List.mem_cons_self
  have hweb : chatRoute (fun _ => none) (workspacePut (fun _ => none) (fun _ _ => .ok ())
      oneWorkspace (inMemory "w2" "docs" "oc_dev")).2 ("oc_dev", "cli_app") =
      some (inMemory "w1" "web" "oc_dev") := by decide +kernel
  rw [hweb] at hroute
  exact absurd hroute (by decide)

end WorkspaceUris
end Esr
