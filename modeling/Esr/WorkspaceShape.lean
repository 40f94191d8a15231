import Esr.WorkspaceCommands

/-! # The shape of workspaces

`WellShaped` is what a session that is spawned in a workspace relies on: there is a
folder to start in, no folder and no chat is there twice, `env` maps texts to texts, and
only a workspace in the runtime's own directory is transient.

Every command keeps it (`wellShaped_reaches`) but one: `workspace_edit` reads the value
of an `env` key as it reads every other, so `true`, a number and a list are stored as
such.
-/
namespace Esr
namespace WorkspaceCommands
open Yaml UriStore WorkspaceUris WorkspaceStruct

variable (env : Env)

/-- What a session relies on. -/
structure WellShaped (s : Struct) : Prop where
  folder : s.folders ≠ []
  isPath : ∀ f ∈ s.folders, (expandFolder env f).isSome = true
  paths : (s.folders.map (expandFolder env)).Nodup
  chats : (s.chats.map fun c => (c.chatId, c.appId)).Nodup
  env : ∃ m, s.env = .map m ∧ ∀ e ∈ m, isText e.1 = true ∧ isText e.2 = true
  transient : s.transient = .bool false ∨ ∃ dir, s.location = some (.esrBound dir)

/-- Every workspace in the store has the shape and a file of its own. -/
def AllShaped (t : WorkspaceStore Struct) : Prop :=
  ∀ uri w, t.lookup uri = some (.entity "workspace" w) →
    WellShaped env w.rest ∧ w.rest.location ≠ none

/-- The command stores a value in `env` that is not a text: an edit of a workspace that
is there, with `set=env.NAME=VALUE` and a value that is read as something else. -/
def StoresTyped (t : WorkspaceStore Struct) : Command → Prop
  | .edit args => ∃ name key raw value,
      nonEmptyText (get "name" args) = some name ∧ lookupStructByName env t name ≠ none ∧
        get "set" args = some (.str ("env." ++ key ++ "=" ++ raw)) ∧
          '.' ∉ key.toList ∧ '=' ∉ key.toList ∧
            Edit.parseValue raw = some value ∧ isText value = false
  | _ => False

variable {env} {t : WorkspaceStore Struct} {s : Struct}

/-! ## One struct -/

theorem nonEmptyText_eq_some {v : Option Value} {text : String} :
    nonEmptyText v = some text ↔ v = some (.str text) ∧ text ≠ "" := by
  unfold nonEmptyText
  split
  · rename_i s
    by_cases hs : s = ""
    · rw [if_pos hs]
      constructor
      · intro h
        cases h
      · rintro ⟨he, hne⟩
        exact absurd ((Value.str.inj (Option.some.inj he)).symm.trans hs) hne
    · rw [if_neg hs]
      constructor
      · intro h
        obtain rfl := Option.some.inj h
        exact ⟨rfl, hs⟩
      · rintro ⟨he, -⟩
        rw [Value.str.inj (Option.some.inj he)]
  · rename_i hno
    constructor
    · intro h
      cases h
    · rintro ⟨he, -⟩
      exact absurd he (hno text)

variable {name key : String} {owner value : Value} {folder : Option (Value × String)}
  {transient : Bool} {chat : Option (String × String)}

theorem wellShaped_newStruct {uuid : String}
    (hfolder : ∀ f, folder = some f → chardata f.1 = some f.2) :
    WellShaped env (New.newStruct env uuid name owner folder transient chat) := by
  have hone : ∃ f, (New.newStruct env uuid name owner folder transient chat).folders = [f] ∧
      (expandFolder env f).isSome = true := by
    cases folder with
    | none => exact ⟨_, rfl, rfl⟩
    | some f =>
      refine ⟨_, rfl, ?_⟩
      simp [expandFolder, hfolder f rfl]
  obtain ⟨f, hf, hpath⟩ := hone
  constructor
  · rw [hf]
    simp
  · rw [hf]
    exact fun g hg => List.mem_singleton.mp hg ▸ hpath
  · rw [hf]
    exact List.nodup_singleton _
  · cases chat with
    | none => exact List.nodup_nil
    | some key => exact List.nodup_singleton _
  · exact ⟨[], rfl, by simp⟩
  · cases folder with
    | none => exact Or.inr ⟨_, rfl⟩
    | some f => exact Or.inl (congrArg Value.bool (Bool.and_false transient))

theorem isChat_iff {chatId appId : String} {c : ChatEntry} :
    isChat chatId appId c = true ↔ (c.chatId, c.appId) = (.str chatId, .str appId) := by
  unfold isChat
  rw [Bool.and_eq_true, Value.isStr_iff, Value.isStr_iff, Prod.mk.injEq]

theorem WellShaped.addChat (h : WellShaped env s) {chatId appId : String} {kind : Option Value}
    (hnew : s.chats.any (isChat chatId appId) = false) :
    WellShaped env { s with chats := s.chats ++ [⟨.str chatId, .str appId, kind⟩] } := by
  refine ⟨h.folder, h.isPath, h.paths, ?_, h.env, h.transient⟩
  rw [List.map_append, List.map_singleton, ← List.concat_eq_append, List.nodup_concat]
  refine ⟨?_, h.chats⟩
  intro hmem
  obtain ⟨c, hc, he⟩ := List.mem_map.mp hmem
  have hany : s.chats.any (isChat chatId appId) = true :=
    List.any_eq_true.mpr ⟨c, hc, isChat_iff.mpr he⟩
  rw [hnew] at hany
  cases hany

theorem WellShaped.filterChats (h : WellShaped env s) (chatId : String) (appId : Option String) :
    WellShaped env { s with chats := UnbindChat.filterChats s.chats chatId appId } := by
  refine ⟨h.folder, h.isPath, h.paths, ?_, h.env, h.transient⟩
  have hsub : (UnbindChat.filterChats s.chats chatId appId).Sublist s.chats := by
    unfold UnbindChat.filterChats
    split
    · exact List.filter_sublist
    · exact List.filter_sublist
  exact h.chats.sublist (hsub.map _)

theorem anyFolder_eq_false {folders : List Folder} {expanded : String}
    (h : anyFolder env folders expanded = some false) :
    ∀ f ∈ folders, expandFolder env f ≠ some expanded := by
  induction folders with
  | nil => simp
  | cons f rest ih =>
    unfold anyFolder at h
    obtain ⟨path, hpath, h⟩ := Option.bind_eq_some_iff.mp h
    split at h
    · cases h
    · rename_i hne
      rw [List.forall_mem_cons]
      refine ⟨?_, ih h⟩
      rw [hpath]
      exact fun he => hne (Option.some.inj he)

theorem expandFolder_expanded (path : String) (name : Value) :
    expandFolder env ⟨.str (Path.expand env.dirs path), name⟩ =
      some (Path.expand env.dirs path) :=
  congrArg some (Path.expand_expand env.dirs path)

theorem WellShaped.addFolder (h : WellShaped env s) {path : String} {name : Value}
    (hnew : anyFolder env s.folders (Path.expand env.dirs path) = some false) :
    WellShaped env
      { s with folders := s.folders ++ [⟨.str (Path.expand env.dirs path), name⟩] } := by
  refine ⟨by simp, ?_, ?_, h.chats, h.env, h.transient⟩
  · intro f hf
    rcases List.mem_append.mp hf with hf | hf
    · exact h.isPath f hf
    · rw [List.mem_singleton.mp hf, expandFolder_expanded]
      rfl
  · rw [List.map_append, List.map_singleton, expandFolder_expanded, ← List.concat_eq_append,
      List.nodup_concat]
    refine ⟨?_, h.paths⟩
    intro hmem
    obtain ⟨f, hf, he⟩ := List.mem_map.mp hmem
    exact anyFolder_eq_false hnew f hf he

theorem WellShaped.removeFolder (h : WellShaped env s) {expanded : String}
    {remaining : List Folder} (hmany : s.folders.length ≠ 1)
    (hremaining : RemoveFolder.reject env s.folders expanded = some remaining) :
    WellShaped env { s with folders := remaining } := by
  have hfilter : remaining = s.folders.filter fun f => expandFolder env f ≠ some expanded := by
    unfold RemoveFolder.reject at hremaining
    split at hremaining
    · exact (Option.some.inj hremaining).symm
    · cases hremaining
  have hsub : remaining.Sublist s.folders := by
    rw [hfilter]
    exact List.filter_sublist
  refine ⟨?_, fun f hf => h.isPath f (hsub.subset hf), h.paths.sublist (hsub.map _), h.chats,
    h.env, h.transient⟩
  intro hnil
  -- all folders at one path would be one folder
  have hall : ∀ f ∈ s.folders, expandFolder env f = some expanded := by
    intro f hf
    by_contra hne
    have hmem : f ∈ remaining := by
      rw [hfilter]
      exact List.mem_filter.mpr ⟨hf, by simpa using hne⟩
    change remaining = [] at hnil
    rw [hnil] at hmem
    cases hmem
  have hrep : s.folders.map (expandFolder env) =
      List.replicate s.folders.length (some expanded) := by
    rw [List.eq_replicate_iff]
    refine ⟨List.length_map _, ?_⟩
    intro p hp
    obtain ⟨f, hf, rfl⟩ := List.mem_map.mp hp
    exact hall f hf
  have hlen : s.folders.length ≤ 1 := by
    have hnodup := h.paths
    rw [hrep] at hnodup
    exact List.nodup_replicate.mp hnodup
  have hpos : 0 < s.folders.length := List.length_pos_of_ne_nil h.folder
  omega

theorem mem_put {m : Entries} {e : Value × Value} (h : e ∈ Yaml.put key value m) :
    e = (.str key, value) ∨ e ∈ m := by
  induction m with
  | nil => exact Or.inl (List.mem_singleton.mp h)
  | cons e' m ih =>
    unfold Yaml.put at h
    split at h
    · rcases List.mem_cons.mp h with he | hm
      · exact Or.inl he
      · exact Or.inr (List.mem_cons_of_mem _ hm)
    · split at h
      · rcases List.mem_cons.mp h with he | hm
        · exact Or.inl he
        · exact Or.inr hm
      · rcases List.mem_cons.mp h with he | hm
        · exact Or.inr (he ▸ List.mem_cons_self)
        · rcases ih hm with he | hm
          · exact Or.inl he
          · exact Or.inr (List.mem_cons_of_mem _ hm)

/-! ## What an edit changes -/

theorem checkLockedOrKnown_eq_ok {top : String} {rest : Option String}
    {field : String × Option String} (h : Edit.checkLockedOrKnown top rest = .ok field) :
    field = ("agent", none) ∨ field = ("transient", none) ∨
      (∃ key, field = ("settings", some key)) ∨
      ∃ name, field = ("env", some name) ∧ top = "env" ∧ rest = some name ∧ '.' ∉ name.toList := by
  unfold Edit.checkLockedOrKnown at h
  split at h
  · cases h
  · split at h
    · cases rest with
      | none => exact Or.inl (Except.ok.inj h).symm
      | some r => cases h
    · split at h
      · rename_i htop
        cases rest with
        | none => cases h
        | some name =>
          dsimp only at h
          split at h
          · cases h
          · rename_i hdot
            exact Or.inr (Or.inr (Or.inr ⟨name, (Except.ok.inj h).symm, htop, rfl, hdot⟩))
      · split at h
        · cases rest with
          | none => cases h
          | some key => exact Or.inr (Or.inr (Or.inl ⟨key, (Except.ok.inj h).symm⟩))
        · split at h
          · cases rest with
            | none => exact Or.inr (Or.inl (Except.ok.inj h).symm)
            | some r => cases h
          · cases h

theorem parseKey_eq_ok {field : String × Option String} (h : Edit.parseKey key = .ok field) :
    field = ("agent", none) ∨ field = ("transient", none) ∨
      (∃ key, field = ("settings", some key)) ∨
      ∃ name, field = ("env", some name) ∧ key = "env." ++ name ∧ '.' ∉ name.toList := by
  unfold Edit.parseKey at h
  split at h
  · rename_i top rest hsplit
    rcases checkLockedOrKnown_eq_ok h with hf | hf | hf | ⟨name, hf, htop, hrest, hdot⟩
    · exact Or.inl hf
    · exact Or.inr (Or.inl hf)
    · exact Or.inr (Or.inr (Or.inl hf))
    · obtain rfl := Option.some.inj hrest
      refine Or.inr (Or.inr (Or.inr ⟨rest, hf, ?_, hdot⟩))
      rw [(splitParts2_eq_pair.mp hsplit).1, htop]
      rfl
  · rcases checkLockedOrKnown_eq_ok h with hf | hf | hf | ⟨name, -, -, hrest, -⟩
    · exact Or.inl hf
    · exact Or.inr (Or.inl hf)
    · exact Or.inr (Or.inr (Or.inl hf))
    · cases hrest

theorem parseSetString_eq_some {set raw : String} (h : Edit.parseSetString set = some (key, raw)) :
    set = key ++ "=" ++ raw ∧ '=' ∉ key.toList := by
  unfold Edit.parseSetString at h
  split at h
  · rename_i k v hsplit
    obtain ⟨rfl, rfl⟩ := Prod.mk.inj (Option.some.inj h)
    have hparts := splitParts2_eq_pair.mp hsplit
    exact hparts
  · cases h

theorem WellShaped.putEnv (h : WellShaped env s) {field : Value} (htext : isText value = true)
    (hput : Edit.putKey s.env key value = some field) :
    WellShaped env { s with env := field } := by
  obtain ⟨m, hm, hall⟩ := h.env
  rw [hm] at hput
  refine ⟨h.folder, h.isPath, h.paths, h.chats, ⟨Yaml.put key value m, ?_, ?_⟩, h.transient⟩
  · exact (Option.some.inj hput).symm
  · intro e he
    rcases mem_put he with rfl | he
    · exact ⟨rfl, htext⟩
    · exact hall e he

theorem WellShaped.mutated (h : WellShaped env s) (hlocated : s.location ≠ none) {top : String}
    {sub : Option String} {updated : Struct} (hkey : Edit.parseKey key = .ok (top, sub))
    (htext : ∀ name, sub = some name → key = "env." ++ name → '.' ∉ name.toList → isText value = true)
    (hvalid : Edit.validateFieldValue top value = none)
    (hcheck : Edit.checkTransientRepoBound top value s = none)
    (hupdated : Edit.applyMutation s top sub value = some updated) :
    WellShaped env updated ∧ updated.location ≠ none := by
  rcases parseKey_eq_ok hkey with hf | hf | ⟨k, hf⟩ | ⟨name, hf, he, hdot⟩
  · obtain ⟨rfl, rfl⟩ := Prod.mk.inj hf
    obtain rfl := Option.some.inj hupdated
    exact ⟨⟨h.folder, h.isPath, h.paths, h.chats, h.env, h.transient⟩, hlocated⟩
  · -- only a boolean gets here, and `true` only where the workspace is the runtime's own
    obtain ⟨rfl, rfl⟩ := Prod.mk.inj hf
    obtain rfl := Option.some.inj hupdated
    refine ⟨⟨h.folder, h.isPath, h.paths, h.chats, h.env, ?_⟩, hlocated⟩
    unfold Edit.validateFieldValue at hvalid
    rw [if_pos rfl] at hvalid
    split at hvalid
    · rename_i b
      cases b with
      | false => exact Or.inl rfl
      | true =>
        refine Or.inr ?_
        unfold Edit.checkTransientRepoBound at hcheck
        cases hloc : s.location with
        | none => exact absurd hloc hlocated
        | some location =>
          cases location with
          | esrBound dir => exact ⟨dir, rfl⟩
          | repoBound repo => simp [hloc] at hcheck
    · cases hvalid
  · obtain ⟨rfl, rfl⟩ := Prod.mk.inj hf
    obtain ⟨settings, -, rfl⟩ := Option.map_eq_some_iff.mp hupdated
    exact ⟨⟨h.folder, h.isPath, h.paths, h.chats, h.env, h.transient⟩, hlocated⟩
  · obtain ⟨rfl, rfl⟩ := Prod.mk.inj hf
    obtain ⟨field, hfield, rfl⟩ := Option.map_eq_some_iff.mp hupdated
    exact ⟨h.putEnv (htext name rfl he hdot) hfield, hlocated⟩

/-! ## The store -/

@[simp] theorem put_snd (reply : Reply) :
    (put env t s reply).2 = (WorkspaceStruct.workspacePut env.dispatchToPlugin env.disk t s).2 := by
  unfold put
  split
  · rename_i h
    rw [h]
  · rename_i h
    rw [h]

theorem AllShaped.put (h : AllShaped env t) (hs : WellShaped env s) (hlocated : s.location ≠ none)
    (reply : Reply) : AllShaped env (WorkspaceCommands.put env t s reply).2 := by
  intro uri w hrow
  rw [put_snd] at hrow
  rcases entity_of_lookup_put _ hrow with rfl | hold
  · exact ⟨hs, hlocated⟩
  · exact h uri w hold

theorem AllShaped.lookup (h : AllShaped env t) (hs : lookupStructByName env t name = some s) :
    WellShaped env s ∧ s.location ≠ none := by
  obtain ⟨w, hw, rfl⟩ := Option.map_eq_some_iff.mp hs
  obtain ⟨id, -, hid⟩ := Option.bind_eq_some_iff.mp hw
  obtain ⟨uri, hrow⟩ := exists_row_of_workspaceByUuid hid
  exact h uri w hrow

theorem allShaped_createNew (h : AllShaped env t) {uuid : String}
    (hfolder : ∀ f, folder = some f → chardata f.1 = some f.2) :
    AllShaped env (New.createNew env uuid name owner folder transient chat t).2 := by
  have hlocated : (New.newStruct env uuid name owner folder transient chat).location ≠ none := by
    simp [New.newStruct]
  unfold New.createNew
  dsimp only
  split
  · split
    · exact h.put (wellShaped_newStruct hfolder) hlocated _
    · exact h.put (wellShaped_newStruct hfolder) hlocated _
  · exact h

theorem allShaped_handleExisting (h : AllShaped env t) (hs : WellShaped env s ∧ s.location ≠ none)
    (chat : Option (String × String)) :
    AllShaped env (New.handleExisting env name s chat t).2 := by
  unfold New.handleExisting
  split
  · exact h
  · rename_i key
    split
    · exact h
    · rename_i hnew
      exact h.put (hs.1.addChat (by simpa using hnew)) hs.2 _

theorem allShaped_doCreateOrBind (h : AllShaped env t) {uuid : String}
    (hfolder : ∀ f, folder = some f → chardata f.1 = some f.2) :
    AllShaped env (New.doCreateOrBind env uuid name owner folder transient chat t).2 := by
  unfold New.doCreateOrBind
  split
  · rename_i existing hfound
    exact allShaped_handleExisting h (h.lookup hfound) chat
  · exact allShaped_createNew h hfolder

theorem allShaped_new (h : AllShaped env t) (uuid : String) (args : Entries) :
    AllShaped env (New.execute env uuid args t).2 := by
  unfold New.execute
  split
  · exact h
  · dsimp only
    split
    · exact h
    · split
      · split
        · exact h
        · split
          · exact h
          · split
            · exact allShaped_doCreateOrBind h fun f hf => by cases hf
            · split
              · exact h
              · rename_i text htext
                split
                · exact h
                · refine allShaped_doCreateOrBind h fun f hf => ?_
                  obtain rfl := Option.some.inj hf
                  exact htext
      · exact h

theorem allShaped_edit (h : AllShaped env t) {args : Entries}
    (hok : ¬ StoresTyped env t (.edit args)) : AllShaped env (Edit.execute env args t).2 := by
  unfold Edit.execute
  split
  · rename_i name set hname hset
    split
    · exact h
    · rename_i key raw hparts
      split
      · exact h
      · rename_i top sub hkey
        split
        · exact h
        · rename_i value hvalue
          unfold Edit.mutate
          split
          · exact h
          · rename_i hvalid
            split
            · exact h
            · rename_i s hfound
              split
              · exact h
              · rename_i hcheck
                split
                · exact h
                · rename_i updated hupdated
                  obtain ⟨hshape, hlocated⟩ := h.lookup hfound
                  have htext : ∀ sub', sub = some sub' → key = "env." ++ sub' →
                      '.' ∉ sub'.toList → isText value = true := by
                    intro sub' _ hkey' hdot
                    by_contra htyped
                    obtain ⟨rfl, heq⟩ := parseSetString_eq_some hparts
                    refine hok ⟨name, sub', raw, value, hname, by simp [hfound],
                      ?_, hdot, ?_, hvalue, by simpa using htyped⟩
                    · rw [(nonEmptyText_eq_some.mp hset).1, hkey']
                    · rw [hkey', String.toList_append] at heq
                      exact fun hin => heq (List.mem_append_right _ hin)
                  obtain ⟨hshape', hlocated'⟩ :=
                    hshape.mutated hlocated hkey htext hvalid hcheck hupdated
                  exact h.put hshape' hlocated' _
  · exact h

theorem allShaped_addFolder (h : AllShaped env t) (args : Entries) :
    AllShaped env (AddFolder.execute env args t).2 := by
  have hadd : ∀ name path folderName,
      AllShaped env (AddFolder.add env name path folderName t).2 := by
    intro name path folderName
    unfold AddFolder.add
    dsimp only
    split
    · exact h
    · split
      · exact h
      · split
        · exact h
        · split
          · exact h
          · rename_i s hfound
            split
            · exact h
            · exact h
            · rename_i hnew
              exact h.put ((h.lookup hfound).1.addFolder hnew) (h.lookup hfound).2 _
  unfold AddFolder.execute
  split
  · exact h
  · dsimp only
    split
    · split
      · exact h
      · split
        · exact h
        · exact hadd _ _ _
    · split
      · exact h
      · exact hadd _ _ _

theorem allShaped_removeFolder (h : AllShaped env t) (args : Entries) :
    AllShaped env (RemoveFolder.execute env args t).2 := by
  unfold RemoveFolder.execute
  split
  · dsimp only
    split
    · exact h
    · rename_i s hfound
      split
      · exact h
      · exact h
      · split
        · exact h
        · rename_i hmany
          split
          · exact h
          · split
            · exact h
            · rename_i remaining hremaining
              exact h.put ((h.lookup hfound).1.removeFolder hmany hremaining) (h.lookup hfound).2 _
  · exact h

theorem allShaped_bindChat (h : AllShaped env t) (args : Entries) :
    AllShaped env (BindChat.execute env args t).2 := by
  unfold BindChat.execute
  split
  · split
    · exact h
    · split
      · exact h
      · rename_i s hfound
        split
        · exact h
        · rename_i hnew
          exact h.put ((h.lookup hfound).1.addChat (by simpa using hnew)) (h.lookup hfound).2 _
  · exact h

theorem allShaped_unbindChat (h : AllShaped env t) (args : Entries) :
    AllShaped env (UnbindChat.execute env args t).2 := by
  unfold UnbindChat.execute
  split
  · split
    · exact h
    · rename_i s hfound
      dsimp only
      split
      · exact h
      · exact h.put ((h.lookup hfound).1.filterChats _ _) (h.lookup hfound).2 _
  · exact h

theorem allShaped_rename (h : AllShaped env t) (args : Entries) :
    AllShaped env (Rename.execute env args t).2 := by
  have hrename : ∀ oldName newName reply,
      AllShaped env (Rename.workspaceRename env oldName newName reply t).2 := by
    intro oldName newName reply
    unfold Rename.workspaceRename
    split
    · exact h
    · rename_i s hfound
      obtain ⟨hs, hlocated⟩ := h.lookup hfound
      split
      · exact h
      · split
        · dsimp only
          split
          · refine h.put ?_ ?_ _
            · exact ⟨hs.folder, hs.isPath, hs.paths, hs.chats, hs.env, Or.inr ⟨_, rfl⟩⟩
            · simp
          · exact h
        · refine h.put ?_ ?_ _
          · exact ⟨hs.folder, hs.isPath, hs.paths, hs.chats, hs.env, hs.transient⟩
          · exact hlocated
  unfold Rename.execute
  split
  · split
    · exact h
    · split
      · exact h
      · split
        · exact h
        · exact hrename _ _ _
  · exact h

/-- One command. -/
def step (env : Env) (t : WorkspaceStore Struct) (c : Command) : Option (WorkspaceStore Struct) :=
  some (run env c t).2

theorem allShaped_run (h : AllShaped env t) {c : Command} (hok : ¬ StoresTyped env t c) :
    AllShaped env (run env c t).2 := by
  cases c with
  | new uuid args => exact allShaped_new h uuid args
  | edit args => exact allShaped_edit h hok
  | addFolder args => exact allShaped_addFolder h args
  | removeFolder args => exact allShaped_removeFolder h args
  | bindChat args => exact allShaped_bindChat h args
  | unbindChat args => exact allShaped_unbindChat h args
  | rename args => exact allShaped_rename h args

/-- **The shape over runs.** -/
theorem wellShaped_reaches {t₀ : WorkspaceStore Struct} (h0 : AllShaped env t₀)
    (h : Reaches (step env) (fun t c => ¬ StoresTyped env t c) t₀ t) {uri : String}
    {w : Workspace Struct} (hrow : t.lookup uri = some (.entity "workspace" w)) :
    WellShaped env w.rest := by
  have hall : AllShaped env t := by
    refine h.invariant h0 fun t c u ht hok hs => ?_
    obtain rfl := Option.some.inj hs
    exact allShaped_run ht hok
  exact (hall uri w hrow).1

/-! ## A key set to a text, and one set to a boolean -/

/-- A runtime in which nothing fails and every owner is known. -/
def plainEnv : Env where
  dispatchToPlugin := fun _ => none
  disk := ⟨fun _ => .ok (), fun _ => .ok "{}", fun _ _ => .ok (), fun _ _ => .ok ()⟩
  dirs := ⟨"/home/ann", "/srv"⟩
  ownerExists := fun _ => true
  isDir := fun _ => true
  exists? := fun _ => true
  workspaceDir := fun name => "/srv/" ++ name
  resolveWorkspace := fun _ => none
  mkdirP := fun _ => true
  register := fun _ => true
  renameDir := fun _ _ => true

/-- The store after `workspace_new name=web owner=ann` and `workspace_edit name=web`
with the text given. -/
def afterEdit (set : String) : WorkspaceStore Struct :=
  (run plainEnv (.edit [(.str "name", .str "web"), (.str "set", .str set)])
    (run plainEnv (.new "w1" [(.str "name", .str "web"), (.str "owner", .str "ann")])
      Ets.empty).2).2

theorem reaches_afterEdit (set : String)
    (hok : ¬ StoresTyped plainEnv
      (run plainEnv (.new "w1" [(.str "name", .str "web"), (.str "owner", .str "ann")])
        Ets.empty).2 (.edit [(.str "name", .str "web"), (.str "set", .str set)])) :
    Reaches (step plainEnv) (fun t c => ¬ StoresTyped plainEnv t c) Ets.empty (afterEdit set) := by
  refine ⟨_, .cons ?_ rfl (.cons hok rfl .nil)⟩
  exact id

theorem wellShaped_afterEdit :
    ∃ w, (afterEdit "env.LANG=C").lookup (canonicalUri "w1") = some (.entity "workspace" w) ∧
      WellShaped plainEnv w.rest := by
  have hrow : ∃ w, (afterEdit "env.LANG=C").lookup (canonicalUri "w1") =
      some (.entity "workspace" w) := ⟨_, rfl⟩
  obtain ⟨w, hw⟩ := hrow
  have hempty : AllShaped plainEnv Ets.empty := fun uri w hrow => by cases hrow
  refine ⟨w, hw, wellShaped_reaches hempty (reaches_afterEdit _ ?_) hw⟩
  rintro ⟨name, key, raw, value, -, -, hset, -, hkey, hvalue, htyped⟩
  have hcut : "env.LANG" ++ String.singleton '=' ++ "C" =
      "env." ++ key ++ String.singleton '=' ++ raw := Value.str.inj (Option.some.inj hset)
  have hno : '=' ∉ ("env." ++ key).toList := by
    rw [String.toList_append]
    exact fun hin => (List.mem_append.mp hin).elim (by decide) hkey
  obtain ⟨-, rfl⟩ := cut_injective (by decide) hno hcut
  have htext : Edit.parseValue "C" = some (.str "C") := by rfl
  obtain rfl := Option.some.inj (htext.symm.trans hvalue)
  cases htyped

/-- `set=env.DEBUG=true` leaves a boolean in `env`. -/
theorem not_wellShaped_afterEdit :
    Reaches (step plainEnv) anyStep Ets.empty (afterEdit "env.DEBUG=true") ∧
      ∃ w, (afterEdit "env.DEBUG=true").lookup (canonicalUri "w1") =
          some (.entity "workspace" w) ∧ ¬ WellShaped plainEnv w.rest := by
  refine ⟨⟨_, .cons trivial rfl (.cons trivial rfl .nil)⟩, _, rfl, fun h => ?_⟩
  obtain ⟨m, hm, hall⟩ := h.env
  obtain rfl : [(.str "DEBUG", .bool true)] = m := Value.map.inj hm
  have htext := (hall _ (List.mem_singleton.mpr rfl)).2
  cases htext

end WorkspaceCommands
end Esr
