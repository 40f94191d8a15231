import Esr.UserAdd

/-! # The loads of `user_add`

The command loads the users twice at most: with the new user in the files, and, when it
rolls back, without.  `load_added` and `load_reverted` say what the two loads leave.
-/
namespace Esr
namespace UserAdd
open Yaml UriStore BootFiles UserUris UserLoad

variable {rt : Runtime} {name : String} {w : World} {users : Entries} {disk : UserLoad.Disk}

/-! ## What is read of the files -/

/-- The pair that a file adds to the texts of the users' directory. -/
def pairOf (rd : Readers) (key : String) (file : Except ReadError ByteArray) :
    Option (String × String) :=
  match readUserJson rd file with
  | some (.map doc) =>
      match get "username" doc, get key doc with
      | some (.str username), some (.str text) => some (username, text)
      | _, _ => none
  | _ => none

theorem textsFromDir_eq (rd : Readers) (disk : UserLoad.Disk) (key : String) :
    textsFromDir rd disk key = Dict.empty.setEach
      ((entriesOf disk.users).filterMap fun entry => pairOf rd key (disk.userJson entry)) := by
  have hloop : ∀ (entries : List String) (acc : Dict String String),
      entries.foldl (fun acc entry =>
        match readUserJson rd (disk.userJson entry) with
        | some (.map doc) =>
            match get "username" doc, get key doc with
            | some (.str username), some (.str text) => acc.set username text
            | _, _ => acc
        | _ => acc) acc =
      acc.setEach (entries.filterMap fun entry => pairOf rd key (disk.userJson entry)) := by
    intro entries
    induction entries with
    | nil => exact fun acc => rfl
    | cons entry entries ih =>
      intro acc
      rw [List.foldl_cons, ih, List.filterMap_cons]
      unfold pairOf
      cases readUserJson rd (disk.userJson entry) with
      | none => rfl
      | some v =>
        cases v with
        | map doc =>
          dsimp only
          cases get "username" doc with
          | none => rfl
          | some u =>
            cases u with
            | str username =>
              cases get key doc with
              | none => rfl
              | some t => cases t <;> rfl
            | null | bool | int | float | list | map => rfl
        | null | bool | int | float | str | list => rfl
  exact hloop _ _

/-- The pair that an entry of `users.yaml` adds to the snapshot. -/
def rowOf (e : Value × Value) : Option (String × User) :=
  match e.1 with
  | .str username => some (username, ⟨username, rowIds e.2, .null⟩)
  | _ => none

theorem snapshotOf_eq {acc : Dict String User} (h : ∀ e ∈ users, isText e.1 = true) :
    snapshotOf acc users = some (acc.setEach (users.filterMap rowOf)) := by
  induction users generalizing acc with
  | nil => rfl
  | cons e users ih =>
    obtain ⟨he, hrest⟩ := List.forall_mem_cons.mp h
    obtain ⟨key, row⟩ := e
    cases key with
    | str username => exact ih hrest
    | null | bool | int | float | list | map => cases he

variable {key text : String}

theorem put_eq_append {v : Value} {m : Entries} (h : ∀ e ∈ m, e.1.isStr key = false) :
    ∃ pre post, m = pre ++ post ∧ put key v m = pre ++ (.str key, v) :: post := by
  induction m with
  | nil => exact ⟨[], [], rfl, rfl⟩
  | cons e m ih =>
    obtain ⟨he, hrest⟩ := List.forall_mem_cons.mp h
    unfold put
    rw [if_neg (by rw [he]; exact Bool.false_ne_true)]
    split
    · exact ⟨[], e :: m, rfl, rfl⟩
    · obtain ⟨pre, post, hm, hput⟩ := ih hrest
      exact ⟨e :: pre, post, by rw [hm]; rfl, by rw [hput]; rfl⟩

theorem entriesOf_makeUserDir (hlist : disk.users ≠ .notListable)
    (hnew : rt.uuid ∉ entriesOf disk.users) (i : Nat) :
    entriesOf (makeUserDir rt i disk.users) =
      (entriesOf disk.users).take i ++ rt.uuid :: (entriesOf disk.users).drop i := by
  cases hdir : disk.users with
  | missing => simp [makeUserDir, entriesOf]
  | listing entries =>
    rw [hdir] at hnew
    have hnot : rt.uuid ∉ entries := hnew
    simp only [makeUserDir, if_neg hnot]
    rfl
  | notListable => exact absurd hdir hlist

/-- The texts with the new user's file among the others: it gives the name its text, unless
a later file does. -/
theorem get_textsFromDir
    (hjson : rt.readers.json (rt.encodeJson (userJson rt name)) = some (.map (userJson rt name)))
    (hlist : disk.users ≠ .notListable) (hnew : rt.uuid ∉ entriesOf disk.users)
    (hkey : get key (userJson rt name) = some (.str text)) (i : Nat) (n : String) :
    (textsFromDir rt.readers
        (withUserDir rt i (.ok (rt.encodeJson (userJson rt name))) disk) key).get n =
      if n = name then
        some (((Dict.empty.setEach (((entriesOf disk.users).drop i).filterMap fun entry =>
          pairOf rt.readers key (disk.userJson entry))).get name).getD text)
      else (textsFromDir rt.readers disk key).get n := by
  have hentries : entriesOf
      (withUserDir rt i (.ok (rt.encodeJson (userJson rt name))) disk).users = _ :=
    entriesOf_makeUserDir hlist hnew i
  have hname : get "username" (userJson rt name) = some (.str name) := rfl
  -- the new file, and the others
  have hself : pairOf rt.readers key ((withUserDir rt i
      (.ok (rt.encodeJson (userJson rt name))) disk).userJson rt.uuid) = some (name, text) := by
    simp only [withUserDir, if_pos, pairOf, readUserJson, hjson, hname, hkey]
  have hcons : ∀ entries : List String,
      ((rt.uuid :: entries).filterMap fun entry => pairOf rt.readers key ((withUserDir rt i
        (.ok (rt.encodeJson (userJson rt name))) disk).userJson entry)) =
      (name, text) :: entries.filterMap fun entry => pairOf rt.readers key ((withUserDir rt i
        (.ok (rt.encodeJson (userJson rt name))) disk).userJson entry) :=
    fun entries => List.filterMap_cons_some hself
  have hother : ∀ entries : List String, (∀ e ∈ entries, e ∈ entriesOf disk.users) →
      (entries.filterMap fun entry => pairOf rt.readers key ((withUserDir rt i
        (.ok (rt.encodeJson (userJson rt name))) disk).userJson entry)) =
      entries.filterMap fun entry => pairOf rt.readers key (disk.userJson entry) := by
    intro entries hin
    refine List.filterMap_congr fun e he => ?_
    have hne : e ≠ rt.uuid := fun h => hnew (h ▸ hin e he)
    simp only [withUserDir, if_neg hne]
  rw [textsFromDir_eq, textsFromDir_eq, hentries, List.filterMap_append,
    hcons, hother _ fun e => List.mem_of_mem_take,
    hother _ fun e => List.mem_of_mem_drop, Dict.get_setEach_insert, ← List.filterMap_append,
    List.take_append_drop]

theorem get_textsFromDir_new
    (hjson : rt.readers.json (rt.encodeJson (userJson rt name)) = some (.map (userJson rt name)))
    (hlist : disk.users ≠ .notListable) (hnew : rt.uuid ∉ entriesOf disk.users)
    (hkey : get key (userJson rt name) = some (.str text)) (i : Nat)
    (hnone : (textsFromDir rt.readers disk key).get name = none) :
    (textsFromDir rt.readers
        (withUserDir rt i (.ok (rt.encodeJson (userJson rt name))) disk) key).get name =
      some text := by
  rw [textsFromDir_eq, ← List.take_append_drop i (entriesOf disk.users), List.filterMap_append,
    Dict.get_setEach_append] at hnone
  rw [get_textsFromDir hjson hlist hnew hkey, if_pos rfl, (Option.or_eq_none_iff.mp hnone).1]
  rfl

theorem get_textsFromDir_first
    (hjson : rt.readers.json (rt.encodeJson (userJson rt name)) = some (.map (userJson rt name)))
    (hlist : disk.users ≠ .notListable) (hnew : rt.uuid ∉ entriesOf disk.users) {old : String}
    (hkey : get key (userJson rt name) = some (.str text))
    (hold : (textsFromDir rt.readers disk key).get name = some old) :
    (textsFromDir rt.readers
        (withUserDir rt 0 (.ok (rt.encodeJson (userJson rt name))) disk) key).get name =
      some old := by
  rw [textsFromDir_eq] at hold
  rw [get_textsFromDir hjson hlist hnew hkey, if_pos rfl, List.drop_zero, hold]
  rfl

theorem get_filterMap_rowOf (hnew : ∀ e ∈ users, e.1.isStr name = false) :
    (Dict.empty.setEach (users.filterMap rowOf)).get name = none := by
  rw [Dict.get_setEach, Option.or_eq_none_iff, Option.map_eq_none_iff, List.find?_eq_none]
  refine ⟨fun p hp hname => ?_, rfl⟩
  obtain ⟨e, he, hpair⟩ := List.mem_filterMap.mp (List.mem_reverse.mp hp)
  have hno := hnew e he
  obtain ⟨key, row⟩ := e
  cases key with
  | str username =>
    obtain rfl := Option.some.inj hpair
    have hsame : username = name := of_decide_eq_true hname
    rw [Value.isStr_str, hsame, beq_self_eq_true] at hno
    cases hno
  | null | bool | int | float | list | map => cases hpair

theorem snapshotOf_put (htexts : ∀ e ∈ users, isText e.1 = true)
    (hnew : ∀ e ∈ users, e.1.isStr name = false) {snapshot : Dict String User}
    (hs : snapshotOf Dict.empty users = some snapshot) :
    ∃ snapshot', snapshotOf Dict.empty
        (put name (.map [(.str "feishu_ids", .list [])]) users) = some snapshot' ∧
      ∀ n, snapshot'.get n =
        if n = name then some ⟨name, .list [], .null⟩ else snapshot.get n := by
  obtain ⟨pre, post, rfl, hput⟩ := put_eq_append (v := .map [(.str "feishu_ids", .list [])]) hnew
  have hall : ∀ e ∈ pre ++ (.str name, .map [(.str "feishu_ids", .list [])]) :: post,
      isText e.1 = true := by
    intro e he
    rcases List.mem_append.mp he with hin | hin
    · exact htexts e (List.mem_append_left _ hin)
    · rcases List.mem_cons.mp hin with rfl | hin
      · rfl
      · exact htexts e (List.mem_append_right _ hin)
  rw [snapshotOf_eq htexts] at hs
  obtain rfl := Option.some.inj hs
  rw [hput]
  refine ⟨_, snapshotOf_eq hall, fun n => ?_⟩
  have hrow : rowOf (.str name, .map [(.str "feishu_ids", .list [])]) =
      some (name, ⟨name, .list [], .null⟩) := rfl
  have hpost := get_filterMap_rowOf fun e he => hnew e (List.mem_append_right _ he)
  rw [List.filterMap_append, List.filterMap_cons_some hrow, Dict.get_setEach_insert, hpost,
    List.filterMap_append]
  rfl

/-- The new user's row, with the default workspace that the files have. -/
def newUser (name : String) (default : Value) : User := ⟨name, .list [], default⟩

/-- What the new user has in the store. -/
def newRows (rt : Runtime) (name : String) (default : Value) : Registration String User :=
  own rt.uuid (newUser name default)

theorem contentOf_congr {disk' : UserLoad.Disk}
    (hentries : entriesOf disk'.users = entriesOf disk.users)
    (hjson : ∀ e ∈ entriesOf disk.users, disk'.userJson e = disk.userJson e) :
    contentOf rt disk' users = contentOf rt disk users := by
  have htexts : ∀ key, textsFromDir rt.readers disk' key = textsFromDir rt.readers disk key := by
    intro key
    rw [textsFromDir_eq, textsFromDir_eq, hentries]
    congr 1
    exact List.filterMap_congr fun e he => by rw [hjson e he]
  unfold contentOf readUuidsFromDir readDefaultWorkspacesFromDir
  rw [htexts, htexts]

theorem readContent_of_yaml {doc : Entries} {c : Content}
    (hfile : disk.usersYaml = some (.ok text.toUTF8))
    (hread : rt.readers.yaml text.toUTF8 = .ok (.map doc))
    (hmap : getOr "users" (.map []) doc = .map users) (hc : contentOf rt disk users = some c) :
    readContent rt.readers disk = some (.ok c) := by
  obtain ⟨snapshot, hs, rfl⟩ := Option.map_eq_some_iff.mp hc
  have hyaml : (Except.ok text.toUTF8 : Except String ByteArray).bind rt.readers.yaml =
      .ok (.map doc) := hread
  unfold readContent
  rw [hfile]
  simp only [hyaml, buildSnapshot, hmap, hs, Option.map_some]

section Ready
variable (hstarts : Starts rt name w users) (hready : Ready rt name w users)
  (hfresh : Fresh rt w)
  (hjson : rt.readers.json (rt.encodeJson (userJson rt name)) =
    some (.map (userJson rt name)))
include hready

theorem contentOf_isSome : ∃ c, contentOf rt w.disk users = some c := by
  unfold contentOf
  rw [snapshotOf_eq hready.names]
  exact ⟨_, rfl⟩

include hstarts hfresh hjson

/-- The files with the new user: the users with an id are the new one, with the id that
the files have for the name, and the others. -/
theorem hasId_added {c : Content} (hc : contentOf rt w.disk users = some c) (i : Nat) :
    ∃ c' default,
      contentOf rt (withUserDir rt i (.ok (rt.encodeJson (userJson rt name))) w.disk)
        (put name (.map [(.str "feishu_ids", .list [])]) users) = some c' ∧
      ∀ id, (readUuidsFromDir rt.readers
          (withUserDir rt i (.ok (rt.encodeJson (userJson rt name))) w.disk)).get name = some id →
        ∀ uuid user, c'.HasId uuid user ↔
          (uuid = id ∧ user = newUser name default) ∨ c.HasId uuid user := by
  obtain ⟨snapshot, hs, rfl⟩ := Option.map_eq_some_iff.mp hc
  obtain ⟨snapshot', hs', hget⟩ := snapshotOf_put hready.names hstarts.new hs
  have huuids := get_textsFromDir hjson hready.listable hfresh.userDir
    (show get "id" (userJson rt name) = some (.str rt.uuid) from rfl) i
  have hdefaults := get_textsFromDir hjson hready.listable hfresh.userDir
    (show get "default_workspace_id" (userJson rt name) = some (.str rt.wsUuid) from rfl) i
  obtain ⟨ws, hws⟩ : ∃ ws, (textsFromDir rt.readers (withUserDir rt i
      (.ok (rt.encodeJson (userJson rt name))) w.disk) "default_workspace_id").get name =
        some ws := ⟨_, (hdefaults name).trans (if_pos rfl)⟩
  refine ⟨_, if ws = "" then .null else .str ws, by unfold contentOf; rw [hs']; rfl,
    fun id hid uuid user => ?_⟩
  -- nobody of that name was there
  have hnone : snapshot.get name = none := by
    rw [snapshotOf_eq hready.names] at hs
    obtain rfl := Option.some.inj hs
    exact get_filterMap_rowOf hstarts.new
  have hrow : (if ws = "" then (⟨name, .list [], .null⟩ : User)
      else { (⟨name, .list [], .null⟩ : User) with defaultWorkspaceId := .str ws }) =
      newUser name (if ws = "" then .null else .str ws) := by
    split <;> rfl
  unfold Content.HasId Content.withDefault
  dsimp only [readUuidsFromDir, readDefaultWorkspacesFromDir] at hid ⊢
  constructor
  · rintro ⟨username, stored, hsnap, huuid, rfl⟩
    rw [hget] at hsnap
    by_cases hname : username = name
    · rw [if_pos hname] at hsnap
      obtain rfl := Option.some.inj hsnap
      rw [hname, hid] at huuid
      refine Or.inl ⟨(Option.some.inj huuid).symm, ?_⟩
      rw [hname, hws]
      exact hrow
    · rw [if_neg hname] at hsnap
      rw [huuids, if_neg hname] at huuid
      refine Or.inr ⟨username, stored, hsnap, huuid, ?_⟩
      rw [hdefaults, if_neg hname]
  · rintro (⟨rfl, rfl⟩ | ⟨username, stored, hsnap, huuid, rfl⟩)
    · refine ⟨name, ⟨name, .list [], .null⟩, by rw [hget, if_pos rfl], hid, ?_⟩
      rw [hws]
      exact hrow.symm
    · have hname : username ≠ name := by
        intro he
        rw [he, hnone] at hsnap
        cases hsnap
      refine ⟨username, stored, by rw [hget, if_neg hname, hsnap], ?_, ?_⟩
      · rw [huuids, if_neg hname, huuid]
      · rw [hdefaults, if_neg hname]

end Ready

/-! ## What the loads write -/

theorem lookup_ne_none {t : UserStore} {rs : List (Registration String User)} (hapart : Apart rs)
    {r : Registration String User} (hr : r ∈ rs) {uri : String} (huri : uri ∈ r.uris) :
    (registerAll t rs).lookup uri ≠ none := by
  rw [lookup_registerAll (fun r' hr' h => hapart r' hr' r hr uri h huri) huri hr]
  split
  · exact Option.some_ne_none _
  · cases t.lookup uri with
    | none => exact Option.some_ne_none _
    | some row => exact Option.some_ne_none _

theorem lookup_userUris (hready : Ready rt name w users) (hfresh : Fresh rt w) :
    ∀ uri ∈ userUris rt name, w.users.lookup uri = none := by
  intro uri huri
  rcases List.mem_cons.mp huri with rfl | huri
  · exact hfresh.userRow
  · rw [List.mem_singleton.mp huri]
    exact hready.nameFree

section Loads
variable (hstarts : Starts rt name w users) (hready : Ready rt name w users)
  (hfresh : Fresh rt w)
  (hjson : rt.readers.json (rt.encodeJson (userJson rt name)) =
    some (.map (userJson rt name)))
  {c : Content} (hc : contentOf rt w.disk users = some c)
include hstarts hready hc

variable {text : String}

theorem load_original {t : UserStore}
    (hread : rt.readers.yaml text.toUTF8 = .ok (.map (readOrEmpty rt w.disk)))
    (hfile : disk.usersYaml = some (.ok text.toUTF8))
    (hentries : entriesOf disk.users = entriesOf w.disk.users)
    (hjson : ∀ e ∈ entriesOf w.disk.users, disk.userJson e = w.disk.userJson e) :
    load rt.readers rt.order disk t =
      (.ok, registerAll (deleteAllByKind t "user") (c.registrations rt.order)) := by
  have hcontent := readContent_of_yaml hfile hread hstarts.isMap
    ((contentOf_congr hentries hjson).trans hc)
  exact load_of_wellFormed hcontent (hready.ids c hc)

theorem sameRows_of_synced (hsynced : Synced rt w) :
    SameRows (registerAll (deleteAllByKind w.users "user") (c.registrations rt.order))
      w.users := by
  obtain ⟨text, htext, hread⟩ := hready.readBack
  have hsame := hsynced text htext
  have hload : load rt.readers rt.order { w.disk with usersYaml := some (.ok text.toUTF8) }
      w.users = _ := load_original hstarts hready hc hread rfl rfl fun _ _ => rfl
  rw [hload] at hsame
  exact hsame

include hfresh

theorem load_reverted (hsynced : Synced rt w) {t : UserStore}
    (hread : rt.readers.yaml text.toUTF8 = .ok (.map (readOrEmpty rt w.disk)))
    (hfile : disk.usersYaml = some (.ok text.toUTF8))
    (hentries : entriesOf disk.users = entriesOf w.disk.users)
    (hjson : ∀ e ∈ entriesOf w.disk.users, disk.userJson e = w.disk.userJson e)
    (ht : SameRows t w.users ∨ ∃ default, SameRows t (register w.users (newRows rt name default))) :
    SameRows (load rt.readers rt.order disk t).2 w.users := by
  rw [load_original hstarts hready hc hread hfile hentries hjson]
  have hdeleted : SameRows (deleteAllByKind t "user") (deleteAllByKind w.users "user") := by
    rcases ht with h | ⟨default, h⟩
    · exact h.deleteAllByKind "user"
    · refine (h.deleteAllByKind "user").trans ?_
      refine sameRows_deleteAllByKind ?_ (lookup_userUris hready hfresh) hfresh.userAlias
      exact fun hmem => canonicalUri_ne_byNameUri hfresh.slash name (List.mem_singleton.mp hmem)
  exact (hdeleted.registerAll _).trans (sameRows_of_synced hstarts hready hc hsynced)

include hjson

/-- The load of the command itself returns, and has written the new user, with the id that
the files have for the name, and the others. -/
theorem load_files (i : Nat)
    (hread : rt.readers.yaml text.toUTF8 = .ok (.map (updatedDoc name users (readOrEmpty rt w.disk)))) :
    ∃ c' default, load rt.readers rt.order
        (withUserDir rt i (.ok (rt.encodeJson (userJson rt name)))
          { w.disk with usersYaml := some (.ok text.toUTF8) }) w.users =
        (.ok, registerAll (deleteAllByKind w.users "user") (Content.registrations c' rt.order)) ∧
      ∀ id, (readUuidsFromDir rt.readers
          (withUserDir rt i (.ok (rt.encodeJson (userJson rt name))) w.disk)).get name = some id →
        ∀ r, r ∈ Content.registrations c' rt.order ↔
          r = own id (newUser name default) ∨ r ∈ c.registrations rt.order := by
  obtain ⟨c', default, hc', hid⟩ := hasId_added hstarts hready hfresh hjson hc i
  have hmap : getOr "users" (.map []) (updatedDoc name users (readOrEmpty rt w.disk)) =
      .map (put name (.map [(.str "feishu_ids", .list [])]) users) := by
    unfold updatedDoc getOr
    rw [get_put_self]
  have hcontent : readContent rt.readers (withUserDir rt i
      (.ok (rt.encodeJson (userJson rt name)))
      { w.disk with usersYaml := some (.ok text.toUTF8) }) = some (.ok c') :=
    readContent_of_yaml rfl hread hmap hc'
  obtain ⟨id, hget⟩ : ∃ id, (readUuidsFromDir rt.readers (withUserDir rt i
      (.ok (rt.encodeJson (userJson rt name))) w.disk)).get name = some id :=
    ⟨_, (get_textsFromDir hjson hready.listable hfresh.userDir
      (show get "id" (userJson rt name) = some (.str rt.uuid) from rfl) i name).trans (if_pos rfl)⟩
  have hids : ∀ uuid user, c'.HasId uuid user → idsWellFormed user = true := by
    intro uuid user h
    rcases (hid id hget uuid user).mp h with ⟨-, rfl⟩ | h
    · rfl
    · exact hready.ids c hc uuid user h
  refine ⟨c', default, load_of_wellFormed hcontent hids, fun id hget r => ?_⟩
  rw [mem_registrations, mem_registrations]
  constructor
  · rintro ⟨uuid, user, h, rfl⟩
    rcases (hid id hget uuid user).mp h with ⟨rfl, rfl⟩ | h
    · exact Or.inl rfl
    · exact Or.inr ⟨uuid, user, h, rfl⟩
  · rintro (rfl | ⟨uuid, user, h, rfl⟩)
    · exact ⟨id, newUser name default, (hid id hget _ _).mpr (Or.inl ⟨rfl, rfl⟩), rfl⟩
    · exact ⟨uuid, user, (hid id hget _ _).mpr (Or.inr h), rfl⟩

omit hfresh hjson in
theorem not_mem_uris (hsynced : Synced rt w) {uri : String} (hfree : w.users.lookup uri = none) :
    ∀ r ∈ c.registrations rt.order, uri ∉ r.uris := by
  intro r hr hin
  apply lookup_ne_none (hready.apart c hc) hr hin
  rw [sameRows_of_synced hstarts hready hc hsynced uri]
  exact hfree

theorem load_added (hsynced : Synced rt w) (i : Nat)
    (hread : rt.readers.yaml text.toUTF8 = .ok (.map (updatedDoc name users (readOrEmpty rt w.disk))))
    (hnone : (readUuidsFromDir rt.readers w.disk).get name = none) :
    ∃ t default, load rt.readers rt.order
        (withUserDir rt i (.ok (rt.encodeJson (userJson rt name)))
          { w.disk with usersYaml := some (.ok text.toUTF8) }) w.users = (.ok, t) ∧
      SameRows t (register w.users (newRows rt name default)) := by
  obtain ⟨c', default, hload, hmem⟩ := load_files hstarts hready hfresh hjson hc i hread
  have hrows := hmem rt.uuid (get_textsFromDir_new hjson hready.listable hfresh.userDir rfl i hnone)
  have hsame := sameRows_of_synced hstarts hready hc hsynced
  have hnew : ∀ r ∈ c.registrations rt.order, ∀ uri ∈ (newRows rt name default).uris,
      uri ∉ r.uris := fun r hr uri huri =>
    not_mem_uris hstarts hready hc hsynced (lookup_userUris hready hfresh uri huri) r hr
  have hapart : Apart (c'.registrations rt.order) := by
    intro r hr r' hr' uri huri huri'
    rcases (hrows r).mp hr with rfl | hr
    · rcases (hrows r').mp hr' with rfl | hr'
      · rfl
      · exact absurd huri' (hnew r' hr' uri huri)
    · rcases (hrows r').mp hr' with rfl | hr'
      · exact absurd huri (hnew r hr uri huri')
      · exact hready.apart c hc r hr r' hr' uri huri huri'
  refine ⟨_, default, hload, ?_⟩
  exact (sameRows_registerAll hapart hrows hnew).trans (hsame.register _)

end Loads

end UserAdd
end Esr
