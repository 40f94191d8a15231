import Esr.UriRegistrations
import Esr.Strings
import Esr.WorkspaceStruct

/-! # The users' part of the URI facade

A user has an entity row, an alias for the name and one for each of the feishu ids:

    esr://localhost/users/<uuid>
    esr://localhost/users/by-name/<name>
    esr://localhost/users/feishu/<open id>
-/
namespace Esr
namespace UserUris
open UriStore Yaml
open WorkspaceStruct (text?)

/-- `esr://localhost/users/<uuid>`. -/
def canonicalUri (uuid : String) : String := "esr://localhost/users/" ++ uuid

/-- `esr://localhost/users/by-name/<name>`. -/
def byNameUri (name : String) : String := "esr://localhost/users/by-name/" ++ name

/-- `esr://localhost/users/feishu/<open id>`. -/
def feishuUri (ouId : String) : String := "esr://localhost/users/feishu/" ++ ouId

/-- `Esr.Entity.User.Struct`.  The loader checks neither the feishu ids nor the default
workspace. -/
structure User where
  username : String
  feishuIds : Value
  defaultWorkspaceId : Value

/-- The rows of the store that are looked up for users. -/
abbrev UserStore := Store String User

section Facade
variable (dispatchToPlugin : String → Option String)

/-- `uuid_for_user_name/1`. -/
def uuidForUserName (t : UserStore) (name : String) : Option String :=
  (resolve dispatchToPlugin t (byNameUri name)).bind (stripPrefix "esr://localhost/users/")

/-- `user_by_uuid/1`. -/
def userByUuid (t : UserStore) (uuid : String) : Option User :=
  match getEntity dispatchToPlugin t (canonicalUri uuid) with
  | some (kind, data) => if kind = "user" then some data else none
  | none => none

/-- `name_for_user_uuid/1`. -/
def nameForUserUuid (t : UserStore) (uuid : String) : Option String :=
  (userByUuid dispatchToPlugin t uuid).map User.username

/-- The user that `username_for_feishu_id/1` finds. -/
def uuidForFeishuId (t : UserStore) (ouId : String) : Option String :=
  (resolve dispatchToPlugin t (feishuUri ouId)).bind (stripPrefix "esr://localhost/users/")

/-- `username_for_feishu_id/1`. -/
def usernameForFeishuId (t : UserStore) (ouId : String) : Option String :=
  (uuidForFeishuId dispatchToPlugin t ouId).bind (nameForUserUuid dispatchToPlugin t)

/-- `user_by_name/1`. -/
def userByName (t : UserStore) (name : String) : Option User :=
  match getEntity dispatchToPlugin t (byNameUri name) with
  | some (kind, data) => if kind = "user" then some data else none
  | none => none

/-- `set_default_workspace_for_user_name/2`, with `none` for `{:error, :not_found}`. -/
def setDefaultWorkspaceForUserName (t : UserStore) (name wsId : String) : Option UserStore := do
  let uuid ← uuidForUserName dispatchToPlugin t name
  let user ← userByUuid dispatchToPlugin t uuid
  return putEntity t (canonicalUri uuid) "user" { user with defaultWorkspaceId := .str wsId }

/-- The user's name leads to the user's row, and each of the feishu ids to the user. -/
structure Found (t : UserStore) (uuid : String) (user : User) (ouIds : List String) : Prop where
  byUuid : userByUuid dispatchToPlugin t uuid = some user
  byName : uuidForUserName dispatchToPlugin t user.username = some uuid
  rowByName : userByName dispatchToPlugin t user.username = some user
  byFeishu : ∀ ouId ∈ ouIds, uuidForFeishuId dispatchToPlugin t ouId = some uuid ∧
    usernameForFeishuId dispatchToPlugin t ouId = some user.username

end Facade

/-- What a loader writes for a user. -/
def registration (uuid : String) (user : User) (ouIds : List String) :
    Registration String User where
  canonical := canonicalUri uuid
  kind := "user"
  data := user
  aliases := byNameUri user.username :: ouIds.map feishuUri

variable {t : UserStore} {dispatchToPlugin : String → Option String} {uuid : String}
  {user : User} {ouIds : List String}

theorem stripPrefix_canonicalUri (uuid : String) :
    stripPrefix "esr://localhost/users/" (canonicalUri uuid) = some uuid :=
  stripPrefix_eq_some.mpr rfl

theorem byNameUri_eq (name : String) :
    byNameUri name = "esr://localhost/users/" ++ ("by-name/" ++ name) := by
  have hlit : "esr://localhost/users/by-name/" = "esr://localhost/users/" ++ "by-name/" := rfl
  have happ := congrArg (fun p => p ++ name) hlit
  exact happ.trans String.append_assoc

theorem canonicalUri_ne_byNameUri (h : '/' ∉ uuid.toList) (name : String) :
    canonicalUri uuid ≠ byNameUri name := by
  intro he
  have hstrip := stripPrefix_canonicalUri uuid
  rw [he, stripPrefix_eq_some.mpr (byNameUri_eq name)] at hstrip
  apply h
  rw [← Option.some.inj hstrip, String.toList_append]
  exact List.mem_append_left _ (by decide)

theorem resolve_bind_eq_some {uri : String} :
    (resolve dispatchToPlugin t uri).bind (stripPrefix "esr://localhost/users/") = some uuid ↔
      resolve dispatchToPlugin t uri = some (canonicalUri uuid) := by
  rw [Option.bind_eq_some_iff]
  constructor
  · rintro ⟨canonical, hres, hstrip⟩
    rw [hres, stripPrefix_eq_some.mp hstrip]
    rfl
  · intro hres
    exact ⟨_, hres, stripPrefix_canonicalUri uuid⟩

theorem setDefaultWorkspaceForUserName_eq {name wsId : String}
    (hname : resolve dispatchToPlugin t (byNameUri name) = some (canonicalUri uuid))
    (hrow : t.lookup (canonicalUri uuid) = some (.entity "user" user)) :
    setDefaultWorkspaceForUserName dispatchToPlugin t name wsId =
      some (putEntity t (canonicalUri uuid) "user"
        { user with defaultWorkspaceId := .str wsId }) := by
  have huuid : uuidForUserName dispatchToPlugin t name = some uuid :=
    resolve_bind_eq_some.mpr hname
  have huser : userByUuid dispatchToPlugin t uuid = some user := by
    unfold userByUuid getEntity resolve
    simp only [hrow, if_pos]
  unfold setDefaultWorkspaceForUserName
  simp only [Option.bind_eq_bind, huuid, huser, Option.bind_some]
  rfl

theorem resolve_putEntity_canonicalUri {uri : String}
    (h : resolve dispatchToPlugin t uri = some (canonicalUri uuid)) :
    resolve dispatchToPlugin (putEntity t (canonicalUri uuid) "user" user) uri =
      some (canonicalUri uuid) := by
  unfold resolve at h ⊢
  rw [putEntity, Ets.lookup_insert]
  by_cases he : uri = canonicalUri uuid
  · rw [if_pos he, he]
  · rw [if_neg he]
    exact h

/-- A user is found where the row and the aliases are those the loader writes, provided
that some entity is in the row. -/
theorem found_iff (hent : IsEntity t (canonicalUri uuid)) :
    Found dispatchToPlugin t uuid user ouIds ↔
      Registered dispatchToPlugin t (registration uuid user ouIds) := by
  obtain ⟨kind, data, hrow⟩ := hent
  have hres : resolve dispatchToPlugin t (canonicalUri uuid) = some (canonicalUri uuid) := by
    unfold resolve
    rw [hrow]
  have huuid : userByUuid dispatchToPlugin t uuid = some user ↔
      t.lookup (canonicalUri uuid) = some (.entity "user" user) := by
    unfold userByUuid getEntity
    rw [hres]
    simp only [hrow, Option.some.injEq, Row.entity.injEq]
    by_cases hkind : kind = "user"
    · simp [hkind]
    · simp [hkind]
  constructor
  · intro h
    refine ⟨huuid.mp h.byUuid, ?_⟩
    intro a ha
    rcases List.mem_cons.mp ha with rfl | ha
    · exact resolve_bind_eq_some.mp h.byName
    · obtain ⟨ouId, hou, rfl⟩ := List.mem_map.mp ha
      exact resolve_bind_eq_some.mp (h.byFeishu ouId hou).1
  · intro h
    have hname : resolve dispatchToPlugin t (byNameUri user.username) =
        some (canonicalUri uuid) := h.aliases _ List.mem_cons_self
    have hown : t.lookup (canonicalUri uuid) = some (.entity "user" user) := h.entity
    have hby := huuid.mpr h.entity
    refine ⟨hby, resolve_bind_eq_some.mpr hname, ?_, fun ouId hou => ?_⟩
    · unfold userByName getEntity
      rw [hname]
      simp only [hown, if_pos]
    · have hfeishu := resolve_bind_eq_some.mpr
        (h.aliases (feishuUri ouId) (List.mem_cons_of_mem _ (List.mem_map_of_mem hou)))
      refine ⟨hfeishu, ?_⟩
      unfold usernameForFeishuId nameForUserUuid
      rw [show uuidForFeishuId dispatchToPlugin t ouId = some uuid from hfeishu,
        Option.bind_some, hby, Option.map_some]

end UserUris
end Esr
