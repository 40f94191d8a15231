import Mathlib.Data.Nat.Digits.Defs
import Esr.IntegerTexts
import Esr.Percent
import Esr.Strings

/-! # Commands from the command line

What `esr` makes of its arguments: a kind and a map of arguments, to be submitted to the
admin queue.  `exec` and its aliases read flags, pairs `key=value` and one sub-action,
which becomes a part of the kind; the other commands submit nothing.
-/
namespace Esr
namespace Cli

/-! ## Arguments -/

/-- `Map.put/3` on texts, in the order of keys. -/
def putPair (k v : String) : List (String × String) → List (String × String)
  | [] => [(k, v)]
  | e :: es =>
      if e.1 = k then (k, v) :: es
      else if k < e.1 then (k, v) :: e :: es
      else e :: putPair k v es

theorem putPair_mem {k v : String} {es : List (String × String)} {e : String × String}
    (h : e ∈ putPair k v es) : e = (k, v) ∨ e ∈ es := by
  induction es with
  | nil => exact .inl (List.mem_singleton.mp h)
  | cons e' es ih =>
    rw [putPair] at h
    split at h
    · exact (List.mem_cons.mp h).imp_right (List.mem_cons_of_mem _)
    · split at h
      · exact List.mem_cons.mp h
      · rcases List.mem_cons.mp h with rfl | h
        · exact .inr List.mem_cons_self
        · exact (ih h).imp_right (List.mem_cons_of_mem _)

theorem putPair_sorted {k v : String} {es : List (String × String)}
    (h : es.Pairwise fun e e' => e.1 < e'.1) :
    (putPair k v es).Pairwise fun e e' => e.1 < e'.1 := by
  induction es with
  | nil => exact List.pairwise_singleton ..
  | cons e es ih =>
    obtain ⟨hhead, htail⟩ := List.pairwise_cons.mp h
    rw [putPair]
    split
    · rename_i heq
      exact List.pairwise_cons.mpr ⟨heq ▸ hhead, htail⟩
    · rename_i hne
      split
      · rename_i hlt
        refine List.pairwise_cons.mpr ⟨?_, h⟩
        exact List.forall_mem_cons.mpr ⟨hlt, fun e' he' => String.lt_trans hlt (hhead e' he')⟩
      · rename_i hnot
        have hlt : e.1 < k := by
          rw [← Std.not_le]
          exact fun hle => hne (String.le_antisymm (String.not_lt.mp hnot) hle)
        refine List.pairwise_cons.mpr ⟨?_, ih htail⟩
        intro e' he'
        rcases putPair_mem he' with rfl | he'
        · exact hlt
        · exact hhead e' he'

/-- The arguments of a command: a text for each key, in the order of keys. -/
structure Args where
  pairs : List (String × String)
  sorted : pairs.Pairwise fun e e' => e.1 < e'.1

/-- `%{}`. -/
def Args.empty : Args := ⟨[], .nil⟩

/-- `Map.put/3`. -/
def Args.put (args : Args) (k v : String) : Args :=
  ⟨putPair k v args.pairs, putPair_sorted args.sorted⟩

/-- `merge_kv/2`: what has no `=` in it is passed over. -/
def mergeKv (args : Args) (spec : String) : Args :=
  match splitParts2 '=' spec with
  | [k, v] => args.put k v
  | _ => args

/-! ## Flags -/

/-- `^[A-Za-z_][A-Za-z0-9_\-]*$`. -/
def isSubAction (token : String) : Bool :=
  match chompNewline token.toList with
  | c :: cs => (c.isAlpha || c = '_') && cs.all fun c => c.isAlphanum || c = '_' || c = '-'
  | [] => false

/-- `parse_admin_flags/4`: the sub-actions, the arguments and how long to wait, in
milliseconds. -/
def parseAdminFlags : List String → List String → Args → Int → List String × Args × Int
  | [], subs, args, timeout => (subs.reverse, args, timeout)
  | "--wait" :: rest, subs, args, timeout => parseAdminFlags rest subs args timeout
  | "--timeout" :: t :: rest, subs, args, _ =>
      match integerParse t with
      | some (n, "") => parseAdminFlags rest subs args (n * 1000)
      | _ => parseAdminFlags rest subs args 60000
  | "--arg" :: spec :: rest, subs, args, timeout =>
      parseAdminFlags rest subs (mergeKv args spec) timeout
  | token :: rest, subs, args, timeout =>
      match stripPrefix "--" token with
      | some flag => parseAdminFlags rest subs (mergeKv args flag) timeout
      | none =>
          if token.toList.contains '=' then parseAdminFlags rest subs (mergeKv args token) timeout
          else if isSubAction token && subs = [] then
            parseAdminFlags rest (token :: subs) args timeout
          else parseAdminFlags rest subs args timeout

/-- `String.replace(s, "-", "_")`. -/
def underscored (s : String) : String :=
  String.ofList (s.toList.map fun c => if c = '-' then '_' else c)

/-- A command to submit. -/
structure Command where
  kind : String
  args : Args
  timeout : Int

/-- `cmd_exec_argv/1`, up to `cmd_exec_kind/3`; without a word it stops. -/
def execArgv : List String → Option Command
  | [] => none
  | first :: rest =>
      let head := underscored (String.ofList (first.toList.dropWhile (· == '/')))
      let (subs, args, timeout) := parseAdminFlags rest [] .empty 60000
      some ⟨underscored ("_".intercalate (head :: subs)), args, timeout⟩

/-- `main/1`: the command that it submits, if it is one that submits. -/
def commandOf : List String → Option Command
  | [] => none
  | ["help"] => none
  | ["help", _] => none
  | "describe-slashes" :: _ => none
  | "exec" :: rest => execArgv rest
  | "admin" :: "submit" :: rest => execArgv rest
  | ["notify", dest, text] => execArgv ["notify", "to=" ++ dest, "text=" ++ text]
  | "notify" :: _ => none
  | "daemon" :: _ => none
  | ["--version"] => none
  | argv => execArgv argv

example : (commandOf ["cap", "list", "--timeout", "5", "more", "--name=a=b"]).map
    (fun c => (c.kind, c.args.pairs, c.timeout)) = some ("cap_list", [("name", "a=b")], 5000) := by
  decide +kernel

/-! ## Submissions -/

/-- `resolve_submitter/0`, of the text under `caller_principal_id` in `operator.json`, if
the file can be read and has one. -/
def resolveSubmitter (principal : Option String) : String :=
  match principal with
  | some pid => if pid = "" then "system:bootstrap" else pid
  | none => "system:bootstrap"

/-- `Integer.to_string(n, 36)` in capitals. -/
def base36 (n : Nat) : List Char :=
  if n = 0 then ['0'] else (Nat.digits 36 n).reverse.map upperHex

/-- `Base.encode32/2` of six bytes, without padding: ten digits, the last with two zeros. -/
def encode32 (random : BitVec 48) : List Char :=
  (List.range 10).map fun i =>
    "ABCDEFGHIJKLMNOPQRSTUVWXYZ234567".toList.getD (random.toNat * 4 / 32 ^ (9 - i) % 32) 'A'

/-- `ulid/0`. -/
def ulid (time : Nat) (random : BitVec 48) : String :=
  String.ofList ('0' :: '1' :: base36 time ++ encode32 random)

/-- What a file in the queue tells. -/
structure Submission where
  id : String
  kind : String
  submittedBy : String
  args : Args

/-- What `main/1` submits. -/
def submissionOf (argv : List String) (principal : Option String) (time : Nat) (random : BitVec 48) :
    Option Submission :=
  (commandOf argv).map fun command =>
    ⟨ulid time random, command.kind, resolveSubmitter principal, command.args⟩

end Cli
end Esr
