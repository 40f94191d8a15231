import Mathlib
import Esr.BootFiles
import Esr.Dict
import Esr.UserUris

/-! # Loading the users

`Esr.Entity.User.FileLoader.load/1` reads `users.yaml`, and the uuids and default
workspaces from the `user.json` files below `users/`.  Without a `users.yaml` the users are
those of the files.  It deletes the users' rows and then writes the row and the aliases of
one user after the other.

`load_faithful_iff` says for which contents of the disk, and which rows left in the store, every
user that has an id is found afterwards.
-/
namespace Esr
namespace UserLoad
open Yaml UriStore BootFiles UserUris
open WorkspaceStruct (text?)

/-- `users.yaml`, if it exists, and the `user.json` of each entry of `users/`. -/
structure Disk where
  usersYaml : Option (Except String ByteArray)
  users : Dir
  userJson : String → Except ReadError ByteArray

/-- The order in which the runtime enumerates a map of users. -/
structure MapOrder where
  toList : Dict String User → List (String × User)
  perm : ∀ d, (toList d).Perm d.items

inductive LoadError where
  | yamlParse (reason : String)
  | malformed (message : String)
  deriving DecidableEq

inductive Result where
  | ok
  | error (reason : LoadError)
  | raised
  deriving DecidableEq

section Read
variable (rd : Readers)

/-- `read_user_json/1`. -/
def readUserJson : Except ReadError ByteArray → Option Value
  | .ok bytes => rd.json bytes
  | .error _ => none

/-- `File.ls!/1` behind `File.dir?/1`.  Where it raises, that is rescued. -/
def entriesOf : Dir → List String
  | .listing entries => entries
  | .missing | .notListable => []

/-- What the files have under a key, by username. -/
def textsFromDir (disk : Disk) (key : String) : Dict String String :=
  (entriesOf disk.users).foldl (fun acc entry =>
    match readUserJson rd (disk.userJson entry) with
    | some (.map doc) =>
        match get "username" doc, get key doc with
        | some (.str username), some (.str text) => acc.set username text
        | _, _ => acc
    | _ => acc) Dict.empty

/-- `read_uuids_from_dir/1`. -/
def readUuidsFromDir (disk : Disk) : Dict String String := textsFromDir rd disk "id"

/-- `read_default_workspaces_from_dir/1`. -/
def readDefaultWorkspacesFromDir (disk : Disk) : Dict String String :=
  textsFromDir rd disk "default_workspace_id"

/-- The users of `load_from_users_dir/1`; the uuids are those of `readUuidsFromDir`. -/
def loadFromUsersDir (disk : Disk) : Dict String User :=
  (entriesOf disk.users).foldl (fun acc entry =>
    match readUserJson rd (disk.userJson entry) with
    | some (.map doc) =>
        match get "username" doc, get "id" doc with
        | some (.str username), some (.str _) =>
            acc.set username
              { username := username
                feishuIds := (get "feishu_ids" doc).getD (.list [])
                defaultWorkspaceId := field "default_workspace_id" doc }
        | _, _ => acc
    | _ => acc) Dict.empty

/-- `(is_map(row) && row["feishu_ids"]) || []`. -/
def rowIds : Value → Value
  | .map m => getOr "feishu_ids" (.list []) m
  | _ => .list []

/-- The `reduce` of `build_snapshot/1`, with `none` where `Regex.match?/2` raises. -/
def snapshotOf (acc : Dict String User) : Entries → Option (Dict String User)
  | [] => some acc
  | (.str username, row) :: rest =>
      snapshotOf (acc.set username ⟨username, rowIds row, .null⟩) rest
  | _ :: _ => none

/-- `build_snapshot/1`. -/
def buildSnapshot : Value → Option (Except LoadError (Dict String User))
  | .map m =>
      match getOr "users" (.map []) m with
      | .map users => (snapshotOf Dict.empty users).map .ok
      | _ => some (.error (.malformed "users: must be a map"))
  | _ => some (.error (.malformed "top level must be a map"))

/-- What is read of the disk. -/
structure Content where
  snapshot : Dict String User
  uuids : Dict String String
  defaults : Dict String String

/-- `load/1` up to the writes, with `none` where it raises. -/
def readContent (disk : Disk) : Option (Except LoadError Content) :=
  match disk.usersYaml with
  | none => some (.ok ⟨loadFromUsersDir rd disk, readUuidsFromDir rd disk, Dict.empty⟩)
  | some file =>
      match file.bind rd.yaml with
      | .error e => some (.error (.yamlParse e))
      | .ok yaml =>
          match buildSnapshot yaml with
          | none => none
          | some (.error e) => some (.error e)
          | some (.ok snapshot) => some (.ok
              ⟨snapshot, readUuidsFromDir rd disk, readDefaultWorkspacesFromDir rd disk⟩)

end Read

/-- `user_with_default`. -/
def Content.withDefault (c : Content) (username : String) (user : User) : User :=
  match c.defaults.get username with
  | some wsId => if wsId = "" then user else { user with defaultWorkspaceId := .str wsId }
  | none => user

/-- The inner `Enum.each`, and whether it returns. -/
def aliasEach (t : UserStore) (canonical : String) : List Value → Bool × UserStore
  | [] => (true, t)
  | .str ouId :: rest => aliasEach (putAlias t (feishuUri ouId) canonical).2 canonical rest
  | _ :: _ => (false, t)

/-- The rows of one user, and whether that returns. -/
def writeUser (t : UserStore) (uuid username : String) (user : User) : Bool × UserStore :=
  let canonical := canonicalUri uuid
  let t := putEntity t canonical "user" user
  let t := (putAlias t (byNameUri username) canonical).2
  match user.feishuIds with
  | .list ids => aliasEach t canonical ids
  | .map [] => (true, t)
  | _ => (false, t)

/-- The `Enum.each` of `populate_uri_store/3`, and whether it returns. -/
def writeEach (c : Content) (t : UserStore) : List (String × User) → Bool × UserStore
  | [] => (true, t)
  | (username, user) :: rest =>
      match c.uuids.get username with
      | none => writeEach c t rest
      | some uuid =>
          let written := writeUser t uuid username (c.withDefault username user)
          if written.1 then writeEach c written.2 rest else written

/-- `load/1`. -/
def load (rd : Readers) (order : MapOrder) (disk : Disk) (t : UserStore) : Result × UserStore :=
  match readContent rd disk with
  | none => (.raised, t)
  | some (.error e) => (.error e, t)
  | some (.ok c) =>
      let written := writeEach c (deleteAllByKind t "user") (order.toList c.snapshot)
      (if written.1 then .ok else .raised, written.2)

/-! ## What is claimed -/

/-- The user, with the row that is meant for it, has an id in the users' directory. -/
def Content.HasId (c : Content) (uuid : String) (user : User) : Prop :=
  ∃ username stored, c.snapshot.get username = some stored ∧
    c.uuids.get username = some uuid ∧ user = c.withDefault username stored

/-- The feishu ids that are listed for a user. -/
def feishuIdList (user : User) : List String :=
  match user.feishuIds with
  | .list ids => ids.filterMap text?
  | _ => []

/-- The feishu ids are a list of texts, or empty. -/
def idsWellFormed (user : User) : Bool :=
  match user.feishuIds with
  | .list ids => ids.all isText
  | .map [] => true
  | _ => false

/-- The URIs and the row that belong to a user. -/
def own (uuid : String) (user : User) : Registration String User :=
  registration uuid user (feishuIdList user)

/-- It returns, and every user with an id is found by name and by each feishu id, or no
lookup has changed. -/
structure Faithful (rd : Readers) (dispatchToPlugin : String → Option String)
    (order : MapOrder) (disk : Disk) (t : UserStore) : Prop where
  returns : (load rd order disk t).1 ≠ .raised
  found : (load rd order disk t).1 = .ok → ∀ c, readContent rd disk = some (.ok c) →
    ∀ uuid user, c.HasId uuid user →
      Found dispatchToPlugin (load rd order disk t).2 uuid user (feishuIdList user)
  kept : (load rd order disk t).1 ≠ .ok → (load rd order disk t).2 = t

/-- The row is no user's, and no alias of one. -/
def Stale (t : UserStore) (uri : String) (row : Row String User) : Prop :=
  t.lookup uri = some row ∧ (∀ user, row ≠ .entity "user" user) ∧
    ∀ c, row = .aliasTo c → isOfKind t "user" c = false

/-- The entries under `users:` in `users.yaml`. -/
def yamlUsers (rd : Readers) (disk : Disk) : Entries :=
  match disk.usersYaml with
  | none => []
  | some file =>
      match file.bind rd.yaml with
      | .ok (.map m) =>
          match getOr "users" (.map []) m with
          | .map users => users
          | _ => []
      | _ => []

/-- What is read does no harm to the store. -/
structure Content.Harmless (c : Content) (t : UserStore) : Prop where
  ids : ∀ uuid user, c.HasId uuid user → idsWellFormed user = true
  apart : ∀ uuid user uuid' user', c.HasId uuid user → c.HasId uuid' user' →
    ∀ uri ∈ (own uuid user).uris, uri ∈ (own uuid' user').uris → uuid = uuid' ∧ user = user'
  free : ∀ uuid user, c.HasId uuid user → ∀ a ∈ (own uuid user).aliases,
    a ≠ canonicalUri uuid → ∀ row, Stale t a row → row = .aliasTo (canonicalUri uuid)

/-- The contents of the disk that do no harm to the store. -/
structure Harmless (rd : Readers) (disk : Disk) (t : UserStore) : Prop where
  names : ∀ e ∈ yamlUsers rd disk, isText e.1 = true
  content : ∀ c, readContent rd disk = some (.ok c) → c.Harmless t

variable {rd : Readers} {dispatchToPlugin : String → Option String} {order : MapOrder}
  {disk : Disk} {t : UserStore} {c : Content}

/-! ## What is read -/

theorem snapshotOf_eq_none_iff {acc : Dict String User} {users : Entries} :
    snapshotOf acc users = none ↔ ¬∀ e ∈ users, isText e.1 = true := by
  induction users generalizing acc with
  | nil => simp [snapshotOf]
  | cons e users ih =>
    obtain ⟨key, row⟩ := e
    rw [List.forall_mem_cons]
    cases key with
    | str username =>
      unfold snapshotOf
      rw [ih]
      simp [isText]
    | null | bool | int | float | list | map => simp [snapshotOf, isText]

theorem readContent_eq_none_iff :
    readContent rd disk = none ↔ ¬∀ e ∈ yamlUsers rd disk, isText e.1 = true := by
  unfold readContent yamlUsers
  cases disk.usersYaml with
  | none => simp
  | some file =>
    simp only
    cases file.bind rd.yaml with
    | error e => simp
    | ok yaml =>
      cases yaml with
      | map m =>
        unfold buildSnapshot
        simp only
        cases getOr "users" (.map []) m with
        | map users =>
          have hnone : snapshotOf Dict.empty users = none ↔ _ := snapshotOf_eq_none_iff
          rw [← hnone]
          cases hs : snapshotOf Dict.empty users with
          | none => simp [hs]
          | some snapshot => simp [hs]
        | null | bool | int | float | str | list => simp
      | null | bool | int | float | str | list => simp [buildSnapshot]

/-- Every user is under the own name. -/
def Keyed (d : Dict String User) : Prop := ∀ name user, d.get name = some user → user.username = name

theorem keyed_empty : Keyed Dict.empty := fun _ _ h => nomatch h

theorem Keyed.set {d : Dict String User} (h : Keyed d) (user : User) :
    Keyed (d.set user.username user) := by
  intro name stored hget
  rw [Dict.get_set] at hget
  split at hget
  · rename_i he
    obtain rfl := Option.some.inj hget
    exact he.symm
  · exact h name stored hget

theorem keyed_snapshotOf {acc snapshot : Dict String User} {users : Entries} (h : Keyed acc)
    (hs : snapshotOf acc users = some snapshot) : Keyed snapshot := by
  induction users generalizing acc with
  | nil =>
    obtain rfl := Option.some.inj hs
    exact h
  | cons e users ih =>
    obtain ⟨key, row⟩ := e
    cases key with
    | str username => exact ih (h.set ⟨username, rowIds row, .null⟩) hs
    | null | bool | int | float | list | map => cases hs

theorem keyed_loadFromUsersDir : Keyed (loadFromUsersDir rd disk) := by
  have hloop : ∀ (entries : List String) (acc : Dict String User), Keyed acc →
      Keyed (entries.foldl (fun acc entry =>
        match readUserJson rd (disk.userJson entry) with
        | some (.map doc) =>
            match get "username" doc, get "id" doc with
            | some (.str username), some (.str _) =>
                acc.set username
                  { username := username
                    feishuIds := (get "feishu_ids" doc).getD (.list [])
                    defaultWorkspaceId := field "default_workspace_id" doc }
            | _, _ => acc
        | _ => acc) acc) := by
    intro entries
    induction entries with
    | nil => exact fun acc h => h
    | cons entry entries ih =>
      intro acc h
      apply ih
      dsimp only
      split
      · split
        · rename_i username _ _ _
          exact h.set ⟨username, _, _⟩
        · exact h
      · exact h
  exact hloop _ _ keyed_empty

theorem keyed_of_readContent (h : readContent rd disk = some (.ok c)) : Keyed c.snapshot := by
  unfold readContent at h
  split at h
  · obtain rfl := Except.ok.inj (Option.some.inj h)
    exact keyed_loadFromUsersDir
  · split at h
    · cases Option.some.inj h
    · rename_i yaml _
      split at h
      · cases h
      · cases Option.some.inj h
      · rename_i snapshot hbuild
        obtain rfl := Except.ok.inj (Option.some.inj h)
        unfold buildSnapshot at hbuild
        split at hbuild
        · split at hbuild
          · obtain ⟨d, hd, he⟩ := Option.map_eq_some_iff.mp hbuild
            obtain rfl := Except.ok.inj he
            exact keyed_snapshotOf keyed_empty hd
          · cases Option.some.inj hbuild
        · cases Option.some.inj hbuild

theorem withDefault_username (c : Content) (username : String) (user : User) :
    (c.withDefault username user).username = user.username := by
  unfold Content.withDefault
  split
  · split <;> rfl
  · rfl

theorem Content.HasId.unique (hk : Keyed c.snapshot) {uuid uuid' : String} {user user' : User}
    (h : c.HasId uuid user) (h' : c.HasId uuid' user') (hname : user.username = user'.username) :
    uuid = uuid' ∧ user = user' := by
  obtain ⟨name, stored, hs, hu, rfl⟩ := h
  obtain ⟨name', stored', hs', hu', rfl⟩ := h'
  rw [withDefault_username, withDefault_username, hk _ _ hs, hk _ _ hs'] at hname
  subst hname
  rw [hs] at hs'
  rw [hu] at hu'
  obtain rfl := Option.some.inj hs'
  obtain rfl := Option.some.inj hu'
  exact ⟨rfl, rfl⟩

/-! ## What is written -/

theorem aliasEach_fst_iff {canonical : String} {ids : List Value} :
    (aliasEach t canonical ids).1 = true ↔ ids.all isText = true := by
  induction ids generalizing t with
  | nil => simp [aliasEach]
  | cons v ids ih =>
    cases v with
    | str ouId =>
      unfold aliasEach
      rw [ih]
      simp [isText]
    | null | bool | int | float | list | map => simp [aliasEach, isText]

theorem aliasEach_of_texts {canonical : String} {ids : List Value} (h : ids.all isText = true) :
    aliasEach t canonical ids =
      (true, putAliases t canonical ((ids.filterMap text?).map feishuUri)) := by
  induction ids generalizing t with
  | nil => rfl
  | cons v ids ih =>
    obtain ⟨hv, hids⟩ := Bool.and_eq_true_iff.mp (List.all_cons.symm.trans h)
    cases v with
    | str ouId => exact ih hids
    | null | bool | int | float | list | map => cases hv

theorem writeUser_fst_iff {uuid username : String} {user : User} :
    (writeUser t uuid username user).1 = true ↔ idsWellFormed user = true := by
  unfold writeUser idsWellFormed
  cases user.feishuIds with
  | list ids => exact aliasEach_fst_iff
  | map m => cases m <;> simp
  | null | bool | int | float | str => simp

theorem writeUser_of_wellFormed {uuid : String} {user : User} (h : idsWellFormed user = true) :
    writeUser t uuid user.username user = (true, register t (own uuid user)) := by
  unfold writeUser register own registration feishuIdList
  unfold idsWellFormed at h
  cases hids : user.feishuIds with
  | list ids =>
    rw [hids] at h
    exact aliasEach_of_texts h
  | map m =>
    rw [hids] at h
    cases m with
    | nil => rfl
    | cons e m => cases h
  | null | bool | int | float | str =>
    rw [hids] at h
    cases h

/-- What is written for an entry of the snapshot. -/
def Content.registrationOf (c : Content) (e : String × User) : Option (Registration String User) :=
  (c.uuids.get e.1).map fun uuid => own uuid (c.withDefault e.1 e.2)

section Each
variable {entries : List (String × User)}

theorem writeEach_fst_iff : (writeEach c t entries).1 = true ↔
    ∀ e ∈ entries, ∀ uuid, c.uuids.get e.1 = some uuid →
      idsWellFormed (c.withDefault e.1 e.2) = true := by
  induction entries generalizing t with
  | nil => simp [writeEach]
  | cons e entries ih =>
    obtain ⟨username, user⟩ := e
    unfold writeEach
    rw [List.forall_mem_cons]
    cases huuid : c.uuids.get username with
    | none =>
      simp only
      rw [ih]
      exact ⟨fun h => ⟨fun uuid hu => (Option.some_ne_none uuid hu.symm).elim, h⟩, And.right⟩
    | some uuid =>
      simp only
      split
      · rename_i hw
        rw [ih]
        exact (and_iff_right fun _ _ => writeUser_fst_iff.mp hw).symm
      · rename_i hw
        refine iff_of_false hw fun h => hw ?_
        exact writeUser_fst_iff.mpr (h.1 uuid rfl)

theorem writeEach_of_wellFormed (hkeyed : ∀ e ∈ entries, e.2.username = e.1)
    (h : ∀ e ∈ entries, ∀ uuid, c.uuids.get e.1 = some uuid →
      idsWellFormed (c.withDefault e.1 e.2) = true) :
    writeEach c t entries = (true, registerAll t (entries.filterMap c.registrationOf)) := by
  induction entries generalizing t with
  | nil => rfl
  | cons e entries ih =>
    obtain ⟨hname, hkeyedRest⟩ := List.forall_mem_cons.mp hkeyed
    obtain ⟨hids, hrest⟩ := List.forall_mem_cons.mp h
    obtain ⟨username, user⟩ := e
    unfold writeEach
    cases huuid : c.uuids.get username with
    | none =>
      have hnone : c.registrationOf (username, user) = none := by
        unfold Content.registrationOf
        rw [huuid, Option.map_none]
      rw [List.filterMap_cons_none hnone]
      exact ih hkeyedRest hrest
    | some uuid =>
      have hsome : c.registrationOf (username, user) =
          some (own uuid (c.withDefault username user)) := by
        unfold Content.registrationOf
        rw [huuid, Option.map_some]
      have hown : (c.withDefault username user).username = username :=
        (withDefault_username c username user).trans hname
      have hwritten : writeUser t uuid _ _ = (true, register t (own uuid _)) :=
        writeUser_of_wellFormed (hids uuid huuid)
      rw [hown] at hwritten
      rw [List.filterMap_cons_some hsome]
      simp only [hwritten, if_pos]
      exact ih hkeyedRest hrest

end Each

/-- What the loader writes, in its order. -/
def Content.registrations (c : Content) (order : MapOrder) : List (Registration String User) :=
  (order.toList c.snapshot).filterMap c.registrationOf

theorem mem_toList {e : String × User} :
    e ∈ order.toList c.snapshot ↔ c.snapshot.get e.1 = some e.2 :=
  (order.perm c.snapshot).mem_iff.trans Dict.get_eq_some.symm

theorem mem_registrations {r : Registration String User} :
    r ∈ c.registrations order ↔ ∃ uuid user, c.HasId uuid user ∧ r = own uuid user := by
  unfold Content.registrations
  rw [List.mem_filterMap]
  constructor
  · rintro ⟨e, he, hr⟩
    obtain ⟨uuid, huuid, rfl⟩ := Option.map_eq_some_iff.mp hr
    exact ⟨uuid, _, ⟨e.1, e.2, mem_toList.mp he, huuid, rfl⟩, rfl⟩
  · rintro ⟨uuid, user, ⟨username, stored, hs, hu, rfl⟩, rfl⟩
    refine ⟨(username, stored), mem_toList.mpr hs, ?_⟩
    unfold Content.registrationOf
    rw [hu, Option.map_some]

theorem idsWellFormed_iff : (∀ e ∈ order.toList c.snapshot, ∀ uuid, c.uuids.get e.1 = some uuid →
      idsWellFormed (c.withDefault e.1 e.2) = true) ↔
    ∀ uuid user, c.HasId uuid user → idsWellFormed user = true := by
  constructor
  · rintro h uuid user ⟨username, stored, hs, hu, rfl⟩
    exact h (username, stored) (mem_toList.mpr hs) uuid hu
  · intro h e he uuid hu
    exact h uuid _ ⟨e.1, e.2, mem_toList.mp he, hu, rfl⟩

theorem load_of_wellFormed (hread : readContent rd disk = some (.ok c))
    (hids : ∀ uuid user, c.HasId uuid user → idsWellFormed user = true) :
    load rd order disk t = (.ok, registerAll (deleteAllByKind t "user") (c.registrations order)) := by
  have hkeyed : ∀ e ∈ order.toList c.snapshot, e.2.username = e.1 :=
    fun e he => keyed_of_readContent hread e.1 e.2 (mem_toList.mp he)
  unfold load
  rw [hread]
  simp only [writeEach_of_wellFormed hkeyed (idsWellFormed_iff.mpr hids), if_pos]
  rfl

theorem load_raised (hread : readContent rd disk = some (.ok c))
    (hids : ¬∀ uuid user, c.HasId uuid user → idsWellFormed user = true) :
    (load rd order disk t).1 = .raised := by
  have hfalse : (writeEach c (deleteAllByKind t "user") (order.toList c.snapshot)).1 ≠ true :=
    fun h => hids (idsWellFormed_iff.mp (writeEach_fst_iff.mp h))
  unfold load
  rw [hread]
  simp only [if_neg hfalse]

theorem free_iff {uuid : String} {user : User} :
    Free (deleteAllByKind t "user") (own uuid user) ↔
      ∀ a ∈ (own uuid user).aliases, a ≠ canonicalUri uuid → ∀ row, Stale t a row →
        row = .aliasTo (canonicalUri uuid) := by
  unfold Free Stale
  simp only [lookup_deleteAllByKind]
  rfl

/-- When the writes all happen, every user is found unless two have a URI in common or a
row is in the way. -/
theorem found_iff_of_content (hread : readContent rd disk = some (.ok c)) :
    (∀ uuid user, c.HasId uuid user →
      Found dispatchToPlugin
        (registerAll (deleteAllByKind t "user") (c.registrations order)) uuid user
        (feishuIdList user)) ↔
    (∀ uuid user uuid' user', c.HasId uuid user → c.HasId uuid' user' →
      ∀ uri ∈ (own uuid user).uris, uri ∈ (own uuid' user').uris → uuid = uuid' ∧ user = user') ∧
    ∀ uuid user, c.HasId uuid user → ∀ a ∈ (own uuid user).aliases, a ≠ canonicalUri uuid →
      ∀ row, Stale t a row → row = .aliasTo (canonicalUri uuid) := by
  have hk := keyed_of_readContent hread
  have hent : ∀ uuid user, c.HasId uuid user →
      IsEntity (registerAll (deleteAllByKind t "user") (c.registrations order))
        (canonicalUri uuid) := by
    intro uuid user h
    have hmem : own uuid user ∈ c.registrations order := mem_registrations.mpr ⟨uuid, user, h, rfl⟩
    obtain ⟨r, -, -, hrow⟩ := lookup_registerAll_canonical (t := deleteAllByKind t "user") hmem
    exact ⟨r.kind, r.data, hrow⟩
  have hdata : ∀ r ∈ c.registrations order, ∀ r' ∈ c.registrations order,
      r.data = r'.data → r = r' := by
    intro r hr r' hr' he
    obtain ⟨uuid, user, h, rfl⟩ := mem_registrations.mp hr
    obtain ⟨uuid', user', h', rfl⟩ := mem_registrations.mp hr'
    obtain ⟨rfl, rfl⟩ := h.unique hk h' (congrArg User.username he)
    rfl
  have hiff : (∀ r ∈ c.registrations order, Registered dispatchToPlugin
      (registerAll (deleteAllByKind t "user") (c.registrations order)) r) ↔ _ :=
    registered_iff hdata
  constructor
  · intro hfound
    obtain ⟨hapart, hfree⟩ := hiff.mp fun r hr => by
      obtain ⟨uuid, user, h, rfl⟩ := mem_registrations.mp hr
      exact (found_iff (hent uuid user h)).mp (hfound uuid user h)
    constructor
    · intro uuid user uuid' user' h h' uri huri huri'
      have he := hapart _ (mem_registrations.mpr ⟨uuid, user, h, rfl⟩) _
        (mem_registrations.mpr ⟨uuid', user', h', rfl⟩) uri huri huri'
      exact h.unique hk h' (congrArg (fun r => User.username r.data) he)
    · intro uuid user h
      exact free_iff.mp (hfree _ (mem_registrations.mpr ⟨uuid, user, h, rfl⟩))
  · rintro ⟨hapart, hfree⟩ uuid user h
    refine (found_iff (hent uuid user h)).mpr (hiff.mpr ⟨?_, ?_⟩ _ ?_)
    · intro r hr r' hr' uri huri huri'
      obtain ⟨u, w, hw, rfl⟩ := mem_registrations.mp hr
      obtain ⟨u', w', hw', rfl⟩ := mem_registrations.mp hr'
      obtain ⟨rfl, rfl⟩ := hapart u w u' w' hw hw' uri huri huri'
      rfl
    · intro r hr
      obtain ⟨u, w, hw, rfl⟩ := mem_registrations.mp hr
      exact free_iff.mpr (hfree u w hw)
    · exact mem_registrations.mpr ⟨uuid, user, h, rfl⟩

/-- **Loading the users** is faithful or harmless, for every content of the disk and every
store that the condition describes and for no other. -/
theorem load_faithful_iff :
    Faithful rd dispatchToPlugin order disk t ↔ Harmless rd disk t := by
  cases hread : readContent rd disk with
  | none =>
    have hraised : (load rd order disk t).1 = .raised := by
      unfold load
      rw [hread]
    exact iff_of_false (fun hf => hf.returns hraised) fun hh =>
      readContent_eq_none_iff.mp hread hh.names
  | some content =>
    have hnames : ∀ e ∈ yamlUsers rd disk, isText e.1 = true := by
      by_contra hno
      rw [readContent_eq_none_iff.mpr hno] at hread
      cases hread
    cases content with
    | error e =>
      -- nothing is written
      have hload : load rd order disk t = (.error e, t) := by
        unfold load
        rw [hread]
      refine iff_of_true ⟨?_, fun hok => ?_, fun _ => by rw [hload]⟩ ⟨hnames, fun c hc => ?_⟩
      · rw [hload]
        exact Result.noConfusion
      · rw [hload] at hok
        cases hok
      · rw [hread] at hc
        cases Option.some.inj hc
    | ok c =>
      by_cases hids : ∀ uuid user, c.HasId uuid user → idsWellFormed user = true
      · have hload : load rd order disk t = (.ok, _) := load_of_wellFormed hread hids
        have hfound : (∀ uuid user, c.HasId uuid user → Found dispatchToPlugin
            (registerAll (deleteAllByKind t "user") (c.registrations order)) uuid user
            (feishuIdList user)) ↔ _ := found_iff_of_content hread
        constructor
        · intro hf
          refine ⟨hnames, fun c' hc => ?_⟩
          obtain rfl := Except.ok.inj (Option.some.inj (hread.symm.trans hc))
          have hall := hf.found (by rw [hload]) c hread
          rw [hload] at hall
          obtain ⟨hapart, hfree⟩ := hfound.mp hall
          exact ⟨hids, hapart, hfree⟩
        · intro hh
          have hc := hh.content c hread
          refine ⟨?_, fun _ c' hc' => ?_, fun hne => (hne (by rw [hload])).elim⟩
          · rw [hload]
            exact Result.noConfusion
          · obtain rfl := Except.ok.inj (Option.some.inj (hread.symm.trans hc'))
            rw [hload]
            exact hfound.mpr ⟨hc.apart, hc.free⟩
      · refine iff_of_false (fun hf => hf.returns (load_raised hread hids)) fun hh => ?_
        exact hids (hh.content c hread).ids

/-- `alice` is bound to a feishu id that is no list. -/
def scalarId : Value :=
  .map [(.str "users", .map [(.str "alice", .map [(.str "feishu_ids", .str "ou_alice")])])]

def scalarIdText : String := "users:\n  alice:\n    feishu_ids: ou_alice\n"

def aliceText : String := "\x7b\"id\": \"3f2b1c4d-5e6f-4a7b-8c9d-0e1f2a3b4c5d\", " ++
  "\"username\": \"alice\"\x7d"

def aliceReaders : Readers where
  json bytes :=
    if bytes = aliceText.toUTF8 then
      some (.map [(.str "id", .str "3f2b1c4d-5e6f-4a7b-8c9d-0e1f2a3b4c5d"),
        (.str "username", .str "alice")])
    else none
  yaml bytes := if bytes = scalarIdText.toUTF8 then .ok scalarId else .error "malformed yaml"

def aliceDisk : Disk where
  usersYaml := some (.ok scalarIdText.toUTF8)
  users := .listing ["3f2b1c4d-5e6f-4a7b-8c9d-0e1f2a3b4c5d"]
  userJson entry :=
    if entry = "3f2b1c4d-5e6f-4a7b-8c9d-0e1f2a3b4c5d" then .ok aliceText.toUTF8
    else .error .enoent

/-- The load raises, and the users are gone. -/
theorem not_faithful_scalarId :
    ¬∀ (rd : Readers) (order : MapOrder) (disk : Disk) (t : UserStore),
      Faithful rd (fun _ => none) order disk t := by
  intro h
  have hf := h aliceReaders ⟨Dict.items, fun d => .refl _⟩ aliceDisk Ets.empty
  refine hf.returns ?_
  decide +kernel

end UserLoad
end Esr
