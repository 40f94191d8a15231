import Esr.CapabilityFile

/-! # The commands that edit `capabilities.yaml`

`cap_grant` and `cap_revoke`.  Both check and translate the permission they are
given (`UuidTranslator`), read the whole file, change the entry of one principal
and write the whole file back; neither touches the grants table.  A command is a
function of the file it finds: it gives the reply and the file it leaves.

`Grant.execute_eq_ok` says everything that is true of a grant that replied ok, and
the `execute_of_not_ok` of the two commands that any other reply leaves the file
alone.
-/
namespace Esr
open Yaml

/-! ## Translating capability strings -/

namespace UuidTranslator

/-- `parse/1`: the resource, the scope and the permission, or `none` for a flat
capability. -/
def parse (cap : String) : Option (String × String × String) :=
  match splitParts2 ':' cap with
  | [resource, rest] =>
      match splitParts2 '/' rest with
      | [scope, perm] => some (resource, scope, perm)
      | _ => none
  | _ => none

/-- A character against one of the shape: `h` is a lower-case hexadecimal digit,
`v` one of the four variant digits, and any other stands for itself. -/
def shapeChar (shape c : Char) : Bool :=
  if shape = 'h' then "0123456789abcdef".toList.contains c
  else if shape = 'v' then "89ab".toList.contains c
  else shape == c

/-- `uuid_shape?/1`. -/
def uuidShape (s : String) : Bool :=
  let shape := "hhhhhhhh-hhhh-4hhh-vhhh-hhhhhhhhhhhh".toList
  let cs := chompNewline s.toList
  cs.length == shape.length && (shape.zip cs).all fun p => shapeChar p.1 p.2

/-- `name_to_uuid/1`, with `none` for an unknown workspace. -/
def nameToUuid (rt : CapRuntime) (cap : String) : Option String :=
  match parse cap with
  | some (resource, scope, perm) =>
      if resource = "workspace" then
        if uuidShape scope then some cap
        else (rt.uuidForWorkspaceName scope).map fun id => resource ++ ":" ++ id ++ "/" ++ perm
      else some cap
  | none => some cap

/-- `validate_session_cap_input/1`: `none` when the string passes, and otherwise
the message. -/
def validateSessionCapInput (cap : String) : Option String :=
  match (stripPrefix "session:" cap).map (splitParts2 '/') with
  | some [value, _] =>
      if value = "" then none
      else if uuidShape value then none
      else some ("session caps require UUID; name input is not accepted (got \"" ++ value ++ "\")")
  | _ => none

end UuidTranslator

/-! ## Reading and writing the file -/

namespace Cap

/-- What `Writer.write/2` fails with.  `raised` is an exception. -/
inductive WriteError where
  | posix (reason : String)
  | unsupportedType (v : Value)
  | raised

/-- What a command replies.  `write_failed` shows the reason it carries, and
`raised` is an exception in the command's task. -/
inductive Reply where
  | ok (targetPrincipalId permission action : String)
  | error (type message : String)
  | writeFailed (reason : WriteError)
  | raised

/-- The reply is `{:ok, _}`. -/
def Reply.isOk : Reply → Bool
  | .ok _ _ _ => true
  | _ => false

/-- What an `{:ok, _}` reply carries. -/
def Reply.result : Reply → Option (String × String × String)
  | .ok pid perm action => some (pid, perm, action)
  | _ => none

theorem Reply.result_eq_some {reply : Reply} {pid perm action : String}
    (h : reply.result = some (pid, perm, action)) : reply = .ok pid perm action := by
  cases reply with
  | ok p s a =>
    obtain ⟨rfl, rfl, rfl⟩ : p = pid ∧ s = perm ∧ a = action := by simpa [result] using h
    rfl
  | _ => cases h

variable (rt : CapRuntime)

/-- `Writer.write/2`: the bytes that are written. -/
def write (data : Value) : Except WriteError ByteArray :=
  match rt.mkdirFault with
  | some reason => .error (.posix reason)
  | none =>
      match Writer.encode data with
      | .error .raised => .error .raised
      | .error (.unsupportedType v) => .error (.unsupportedType v)
      | .ok text =>
          match rt.openFault with
          | some reason => .error (.posix reason)
          | none => .ok text.toUTF8

/-- The reply to a write, and the file it leaves. -/
def replyTo (file : Option ByteArray) (pid perm action : String) :
    Except WriteError ByteArray → Reply × Option ByteArray
  | .ok bytes => (.ok pid perm action, some bytes)
  | .error .raised => (.raised, file)
  | .error reason => (.writeFailed reason, file)

/-- The map a file holds, with `none` when it is missing, cannot be read or is
not a map. -/
def readMap : Option ByteArray → Option Entries
  | none => none
  | some bytes =>
      match rt.readFromFile bytes with
      | .ok (.map m) => some m
      | _ => none

/-- `is_map(p) and p["id"] == pid`: the map. -/
def entryOf (pid : String) : Value → Option Entries
  | .map m => if (get "id" m).any (Value.isStr pid) then some m else none
  | _ => none

/-- The entries of the principal replaced, and all the others kept, in place. -/
def replaceEntries (pid : String) (updated : Entries) (principals : List Value) : List Value :=
  principals.map fun p => if (entryOf pid p).isSome then .map updated else p

/-- The map under `args`. -/
def args (cmd : Value) : Entries :=
  match cmd with
  | .map m =>
      match get "args" m with
      | some (.map a) => a
      | _ => []
  | _ => []

/-- The clause of `execute/1` both commands share: the two arguments, which have
to be strings and not empty, are checked and translated and then given to
`edit`. -/
def execute (edit : String → String → Reply × Option ByteArray) (file : Option ByteArray)
    (cmd : Value) (usage : String) : Reply × Option ByteArray :=
  match get "target_principal_id" (args cmd), get "permission" (args cmd) with
  | some (.str pid), some (.str perm) =>
      if pid ≠ "" ∧ perm ≠ "" then
        match UuidTranslator.validateSessionCapInput perm with
        | some msg => (.error "session_cap_requires_uuid" msg, file)
        | none =>
            match UuidTranslator.nameToUuid rt perm with
            | none =>
                (.error "unknown_workspace"
                  ("no workspace found in capability scope: " ++ perm), file)
            | some translated => edit pid translated
      else (.error "invalid_args" usage, file)
  | _, _ => (.error "invalid_args" usage, file)

variable {rt}

theorem entryOf_eq_some {pid : String} {v : Value} {m : Entries} :
    entryOf pid v = some m ↔ v = .map m ∧ get "id" m = some (.str pid) := by
  cases v with
  | map m' =>
    have hguard : (get "id" m').any (Value.isStr pid) = true ↔ get "id" m' = some (.str pid) := by
      cases get "id" m' with
      | none => simp
      | some w => simp [Value.isStr_iff]
    change (if (get "id" m').any (Value.isStr pid) = true then some m' else none) = some m ↔ _
    constructor
    · intro h
      split at h
      · rename_i hid
        obtain rfl := Option.some.inj h
        exact ⟨rfl, hguard.mp hid⟩
      · cases h
    · rintro ⟨he, hid⟩
      obtain rfl := Value.map.inj he
      rw [if_pos (hguard.mpr hid)]
  | _ => simp [entryOf]

theorem replyTo_eq_ok {file file' : Option ByteArray} {pid perm action p s a : String}
    {w : Except WriteError ByteArray} (h : replyTo file pid perm action w = (.ok p s a, file')) :
    ∃ bytes, w = .ok bytes ∧ file' = some bytes ∧ pid = p ∧ perm = s ∧ action = a := by
  unfold replyTo at h
  split at h
  · obtain ⟨hreply, hfile⟩ := Prod.mk.inj h
    obtain ⟨rfl, rfl, rfl⟩ := Reply.ok.inj hreply
    exact ⟨_, rfl, hfile.symm, rfl, rfl, rfl⟩
  · cases h
  · cases h

theorem replyTo_file {file : Option ByteArray} {pid perm action : String}
    {w : Except WriteError ByteArray} (h : (replyTo file pid perm action w).1.isOk = false) :
    (replyTo file pid perm action w).2 = file := by
  unfold replyTo at h ⊢
  split
  · cases h
  · rfl
  · rfl

theorem execute_eq_ok {edit : String → String → Reply × Option ByteArray}
    {file file' : Option ByteArray} {cmd : Value} {usage p s a : String}
    (h : execute rt edit file cmd usage = (.ok p s a, file')) :
    ∃ pid typed stored, get "target_principal_id" (args cmd) = some (.str pid) ∧
      get "permission" (args cmd) = some (.str typed) ∧
      UuidTranslator.nameToUuid rt typed = some stored ∧ edit pid stored = (.ok p s a, file') := by
  unfold execute at h
  split at h
  · rename_i pid typed hpid htyped
    split at h
    · split at h
      · cases h
      · split at h
        · cases h
        · exact ⟨pid, typed, _, hpid, htyped, ‹_›, h⟩
    · cases h
  · cases h

theorem execute_file {edit : String → String → Reply × Option ByteArray}
    {file : Option ByteArray} {cmd : Value} {usage : String}
    (hedit : ∀ pid perm, (edit pid perm).1.isOk = false → (edit pid perm).2 = file)
    (h : (execute rt edit file cmd usage).1.isOk = false) :
    (execute rt edit file cmd usage).2 = file := by
  unfold execute at h ⊢
  split
  · rename_i pid typed hpid htyped
    simp only [hpid, htyped] at h
    split
    · rename_i hne
      rw [if_pos hne] at h
      split
      · rfl
      · rename_i hsession
        simp only [hsession] at h
        split
        · rfl
        · rename_i stored hstored
          simp only [hstored] at h
          exact hedit pid stored h
    · rfl
  · rfl

end Cap

/-! ## Granting -/

namespace Grant
open Cap
variable (rt : CapRuntime)

/-- `read_or_empty/1`. -/
def readOrEmpty (file : Option ByteArray) : Entries :=
  (readMap rt file).getD [(.str "principals", .list [])]

/-- The entry a new principal gets. -/
def newEntry (pid perm : String) : Value :=
  .map [(.str "capabilities", .list [.str perm]), (.str "id", .str pid),
    (.str "kind", .str "feishu_user")]

/-- `if perm in caps, do: caps, else: caps ++ [perm]`. -/
def addCap (perm : String) (caps : List Value) : List Value :=
  if caps.any (Value.isStr perm) then caps else caps ++ [.str perm]

/-- `upsert_grant/3`, with `none` where the capabilities of the entry are not a
list and it raises. -/
def upsertGrant (principals : Value) (pid perm : String) : Option (List Value) :=
  match principals with
  | .list l =>
      match l.findSome? (entryOf pid) with
      | none => some (l ++ [newEntry pid perm])
      | some existing =>
          match getOr "capabilities" (.list []) existing with
          | .list caps =>
              some (replaceEntries pid (put "capabilities" (.list (addCap perm caps)) existing) l)
          | _ => none
  | _ => some [newEntry pid perm]

/-- `do_grant/2`. -/
def doGrant (file : Option ByteArray) (pid perm : String) : Reply × Option ByteArray :=
  match upsertGrant (getOr "principals" (.list []) (readOrEmpty rt file)) pid perm with
  | none => (.raised, file)
  | some updated =>
      replyTo file pid perm "granted"
        (write rt (.map (put "principals" (.list updated) (readOrEmpty rt file))))

/-- `execute/1`. -/
def execute (file : Option ByteArray) (cmd : Value) : Reply × Option ByteArray :=
  if (get "target_principal_id" (args cmd)).any (Value.isStr "system:bootstrap") then
    (.error "reserved_principal_id"
      "'system:bootstrap' is a reserved sentinel; cannot be granted caps", file)
  else
    Cap.execute rt (doGrant rt file) file cmd
      "grant requires args.target_principal_id and args.permission (non-empty strings)"

variable {rt}

/-- **A grant that replied ok**: the translated permission is in the entries it
wrote. -/
theorem execute_eq_ok {file file' : Option ByteArray} {cmd : Value} {pid stored action : String}
    (h : execute rt file cmd = (.ok pid stored action, file')) :
    ∃ typed updated bytes, get "permission" (args cmd) = some (.str typed) ∧
      pid ≠ "system:bootstrap" ∧ UuidTranslator.nameToUuid rt typed = some stored ∧
      upsertGrant (getOr "principals" (.list []) (readOrEmpty rt file)) pid stored =
        some updated ∧
      write rt (.map (put "principals" (.list updated) (readOrEmpty rt file))) = .ok bytes ∧
      file' = some bytes := by
  unfold execute at h
  split at h
  · cases h
  · rename_i hboot
    obtain ⟨p, typed, s, hp, htyped, hs, hedit⟩ := Cap.execute_eq_ok h
    unfold doGrant at hedit
    split at hedit
    · cases hedit
    · rename_i updated hupdated
      obtain ⟨bytes, hbytes, hfile, rfl, rfl, -⟩ := replyTo_eq_ok hedit
      refine ⟨typed, updated, bytes, htyped, ?_, hs, hupdated, hbytes, hfile⟩
      rintro rfl
      simp [hp] at hboot

theorem execute_of_not_ok {file : Option ByteArray} {cmd : Value}
    (h : (execute rt file cmd).1.isOk = false) : (execute rt file cmd).2 = file := by
  unfold execute at h ⊢
  split
  · rfl
  · rename_i hboot
    rw [if_neg hboot] at h
    refine Cap.execute_file (fun pid perm hedit => ?_) h
    unfold doGrant at hedit ⊢
    split
    · rfl
    · rename_i updated hupdated
      simp only [hupdated] at hedit
      exact replyTo_file hedit

end Grant

/-! ## Revoking -/

namespace Revoke
open Cap
variable (rt : CapRuntime)

/-- The reply when there is nothing to revoke. -/
def noMatchingCapability : Reply :=
  .error "no_matching_capability" "no matching capability to revoke"

/-- `remove_grant/3`.  `perm in caps` is false on a map and raises on any other
term that is not a list. -/
def removeGrant (principals : List Value) (pid perm : String) : Except Reply (List Value) :=
  match principals.findSome? (entryOf pid) with
  | none => .error noMatchingCapability
  | some existing =>
      match getOr "capabilities" (.list []) existing with
      | .list caps =>
          if caps.any (Value.isStr perm) then
            let updated := put "capabilities" (.list (caps.eraseP (Value.isStr perm))) existing
            .ok (replaceEntries pid updated principals)
          else .error noMatchingCapability
      | .map _ => .error noMatchingCapability
      | _ => .error .raised

/-- `do_revoke/2`. -/
def doRevoke (file : Option ByteArray) (pid perm : String) : Reply × Option ByteArray :=
  match readMap rt file with
  | none => (noMatchingCapability, file)
  | some doc =>
      match get "principals" doc with
      | some (.list principals) =>
          match removeGrant principals pid perm with
          | .error reply => (reply, file)
          | .ok updated =>
              replyTo file pid perm "revoked"
                (write rt (.map (put "principals" (.list updated) doc)))
      | _ => (noMatchingCapability, file)

/-- `execute/1`. -/
def execute (file : Option ByteArray) (cmd : Value) : Reply × Option ByteArray :=
  Cap.execute rt (doRevoke rt file) file cmd
    "revoke requires args.target_principal_id and args.permission (non-empty strings)"

variable {rt}

theorem execute_of_not_ok {file : Option ByteArray} {cmd : Value}
    (h : (execute rt file cmd).1.isOk = false) : (execute rt file cmd).2 = file := by
  refine Cap.execute_file (fun pid perm hedit => ?_) h
  unfold doRevoke at hedit ⊢
  split
  · rfl
  · rename_i doc hdoc
    simp only [hdoc] at hedit
    split
    · rename_i principals hprincipals
      simp only [hprincipals] at hedit
      split
      · rfl
      · rename_i updated hupdated
        simp only [hupdated] at hedit
        exact replyTo_file hedit
    · rfl

end Revoke

end Esr
