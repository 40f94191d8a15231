import Esr.CapCommands

/-! # What a grant does to the checks

`cap_grant` writes a file, the loader reads it, and the checks ask the table the
loader leaves.  A grant of `typed` to `pid` is `Effective` when afterwards `pid`
holds `typed` and every name the checks have for it, when no other check has
changed, and when no principal and no capability is gone.

It is not so for every file and every permission.  A workspace name is stored as
the workspace's id while the checks go on asking for the name; a permission the
loader rejects makes the whole next load fail; a file that cannot be loaded is
overwritten; and of several entries of one principal the first is edited while
the last counts.  `Fits` rules out exactly these (`effective_iff_fits`).
-/
namespace Esr
namespace Grant
open Yaml Cap FileLoader

/-! ## Loading the rows a grant leaves -/

section Rows

/-- The rows with the list of one principal replaced wherever it stands, and put
last when it stands nowhere. -/
def upsertRows (rows : List (String × List String)) (pid : String) (caps : List String) :
    List (String × List String) :=
  if rows.any fun row => decide (row.1 = pid) then
    rows.map fun row => if row.1 = pid then (pid, caps) else row
  else rows ++ [(pid, caps)]

theorem lookup_upsertRows (rows : List (String × List String)) (pid : String)
    (caps : List String) (q : String) :
    ((Ets.empty : Grants.Table).insertEach (upsertRows rows pid caps)).lookup q =
      if q = pid then some caps else ((Ets.empty : Grants.Table).insertEach rows).lookup q := by
  rw [Ets.lookup_insertEach, Ets.lookup_insertEach, Ets.lookup_empty, Option.or_none,
    Option.or_none]
  unfold upsertRows
  by_cases hany : (rows.any fun row => decide (row.1 = pid)) = true
  · rw [if_pos hany]
    have hkey : ((fun row : String × List String => decide (row.1 = q)) ∘
        fun row => if row.1 = pid then (pid, caps) else row) = fun row => decide (row.1 = q) := by
      funext row
      by_cases hr : row.1 = pid <;> simp [hr]
    -- the last row of `q` stays where it is
    rw [← List.map_reverse, List.find?_map, hkey]
    cases hf : rows.reverse.find? fun row => decide (row.1 = q) with
    | some row =>
      obtain rfl : row.1 = q := by simpa using List.find?_some hf
      by_cases hr : row.1 = pid <;> simp [hr]
    | none =>
      have hq : q ≠ pid := by
        rintro rfl
        obtain ⟨row, hrow, hr⟩ := List.any_eq_true.mp hany
        exact List.find?_eq_none.mp hf row (List.mem_reverse.mpr hrow) hr
      simp [hq]
  · rw [if_neg hany, List.reverse_append, List.reverse_singleton, List.singleton_append,
      List.find?_cons]
    by_cases hq : q = pid
    · simp [hq]
    · simp [hq, Ne.symm hq]

/-- `if perm in caps, do: caps, else: caps ++ [perm]`, on strings. -/
def addPerm (perm : String) (caps : List String) : List String :=
  if perm ∈ caps then caps else caps ++ [perm]

theorem mem_addPerm {perm cap : String} {caps : List String} :
    cap ∈ addPerm perm caps ↔ cap ∈ caps ∨ cap = perm := by
  unfold addPerm
  split
  · rename_i hmem
    constructor
    · exact Or.inl
    · rintro (h | rfl)
      · exact h
      · exact hmem
  · simp

theorem addCap_map_str (perm : String) (caps : List String) :
    addCap perm (caps.map Value.str) = (addPerm perm caps).map Value.str := by
  have hany : ((caps.map Value.str).any (Value.isStr perm)) = decide (perm ∈ caps) := by
    rw [List.any_map, Bool.eq_iff_iff, List.any_eq_true, decide_eq_true_eq]
    simp
  unfold addCap addPerm
  rw [hany]
  by_cases hmem : perm ∈ caps <;> simp [hmem]

end Rows

variable {rt : CapRuntime} {file file' : Option ByteArray} {pid stored : String}

/-- The entries under `principals` in the map a grant edits. -/
def principalsOf (rt : CapRuntime) (file : Option ByteArray) : List Value :=
  match getOr "principals" (.list []) (readOrEmpty rt file) with
  | .list l => l
  | _ => []

/-- The strings of a list. -/
def strings : Value → List String
  | .list l => l.filterMap fun v => match v with
      | .str s => some s
      | _ => none
  | _ => []

/-- What the first entry of the principal lists. -/
def listedFirst (rt : CapRuntime) (file : Option ByteArray) (pid : String) : List String :=
  match (principalsOf rt file).findSome? (entryOf pid) with
  | some m => strings (getOr "capabilities" (.list []) m)
  | none => []

theorem strings_map_str (caps : List String) : strings (.list (caps.map Value.str)) = caps := by
  simp only [strings, List.filterMap_map]
  exact List.filterMap_some

/-- The rows the loader reads off the entries. -/
abbrev Validated (rt : CapRuntime) : List Value → List (String × List String) → Prop :=
  List.Forall₂ fun entry row => validateEntry rt entry = .ok row

theorem Validated.exists_row {l : List Value} {rows : List (String × List String)}
    (hrows : Validated rt l rows) {v : Value} (hv : v ∈ l) :
    ∃ row ∈ rows, validateEntry rt v = .ok row := by
  induction hrows with
  | nil => cases hv
  | cons hrow _ ih =>
    rcases List.mem_cons.mp hv with rfl | hv
    · exact ⟨_, List.mem_cons_self, hrow⟩
    · obtain ⟨row, hmem, hok⟩ := ih hv
      exact ⟨row, List.mem_cons_of_mem _ hmem, hok⟩

theorem Validated.exists_entry {l : List Value} {rows : List (String × List String)}
    (hrows : Validated rt l rows) {row : String × List String} (hr : row ∈ rows) :
    ∃ v ∈ l, validateEntry rt v = .ok row := by
  induction hrows with
  | nil => cases hr
  | cons hrow _ ih =>
    rcases List.mem_cons.mp hr with rfl | hr
    · exact ⟨_, List.mem_cons_self, hrow⟩
    · obtain ⟨v, hmem, hok⟩ := ih hr
      exact ⟨v, List.mem_cons_of_mem _ hmem, hok⟩

theorem isSome_entryOf (pid : String) {v : Value} {row : String × List String}
    (hrow : validateEntry rt v = .ok row) : (entryOf pid v).isSome = decide (row.1 = pid) := by
  obtain ⟨q, held⟩ := row
  obtain ⟨m, rfl, hid, -⟩ := validateEntry_eq_ok.mp hrow
  by_cases hq : q = pid
  · subst hq
    rw [entryOf_eq_some.mpr ⟨rfl, hid⟩]
    simp
  · have hnone : entryOf pid (.map m) = none := by
      rw [Option.eq_none_iff_forall_ne_some]
      intro m' hm'
      obtain ⟨he, hid'⟩ := entryOf_eq_some.mp hm'
      obtain rfl := Value.map.inj he
      rw [hid] at hid'
      exact hq (Value.str.inj (Option.some.inj hid'))
    simp [hnone, hq]

/-! ## The entries a grant writes -/

theorem upsertGrant_eq_some {updated : List Value}
    (h : upsertGrant (getOr "principals" (.list []) (readOrEmpty rt file)) pid stored =
      some updated) :
    ((principalsOf rt file).findSome? (entryOf pid) = none ∧
      updated = principalsOf rt file ++ [newEntry pid stored]) ∨
    (∃ m caps, (principalsOf rt file).findSome? (entryOf pid) = some m ∧
      getOr "capabilities" (.list []) m = .list caps ∧
      updated = replaceEntries pid (put "capabilities" (.list (addCap stored caps)) m)
        (principalsOf rt file)) := by
  cases hp : getOr "principals" (.list []) (readOrEmpty rt file) with
  | list l =>
    have hl : principalsOf rt file = l := by simp only [principalsOf, hp]
    rw [hp] at h
    rw [hl]
    simp only [upsertGrant] at h
    split at h
    · rename_i hnone
      exact Or.inl ⟨hnone, (Option.some.inj h).symm⟩
    · rename_i m hm
      split at h
      · rename_i caps hcaps
        exact Or.inr ⟨m, caps, hm, hcaps, (Option.some.inj h).symm⟩
      · cases h
  | _ =>
    have hl : principalsOf rt file = [] := by simp only [principalsOf, hp]
    rw [hp] at h
    rw [hl]
    exact Or.inl ⟨rfl, (Option.some.inj h).symm⟩

theorem validateEntry_newEntry (hboot : pid ≠ "system:bootstrap") {row : String × List String} :
    validateEntry rt (newEntry pid stored) = .ok row ↔
      row = (pid, [stored]) ∧ validateCap rt stored pid = .ok () := by
  obtain ⟨q, held⟩ := row
  have hid : get "id" [(.str "capabilities", .list [.str stored]), (.str "id", .str pid),
      (.str "kind", .str "feishu_user")] = some (.str pid) := rfl
  have hcaps : get "capabilities" [(.str "capabilities", .list [.str stored]),
      (.str "id", .str pid), (.str "kind", .str "feishu_user")] =
      some (.list ([stored].map Value.str)) := rfl
  rw [validateEntry_eq_ok]
  constructor
  · rintro ⟨m, he, hid', -, hcaps', hall⟩
    obtain rfl := Value.map.inj he
    obtain rfl := Value.str.inj (Option.some.inj (hid.symm.trans hid'))
    have hheld : [stored].map Value.str = held.map Value.str :=
      Value.list.inj (Option.some.inj (hcaps.symm.trans hcaps'))
    obtain rfl : [stored] = held := List.map_injective_iff.mpr (fun _ _ h => Value.str.inj h) hheld
    exact ⟨rfl, hall stored (List.mem_singleton_self stored)⟩
  · rintro ⟨hrow, hcap⟩
    obtain ⟨rfl, rfl⟩ := Prod.mk.inj hrow
    refine ⟨_, rfl, hid, hboot, hcaps, ?_⟩
    intro cap hmem
    rwa [List.mem_singleton.mp hmem]

theorem Validated.listedFirst_eq {rows : List (String × List String)}
    (hrows : Validated rt (principalsOf rt file) rows) {m : Entries}
    (hm : (principalsOf rt file).findSome? (entryOf pid) = some m) :
    validateEntry rt (.map m) = .ok (pid, listedFirst rt file pid) ∧
      getOr "capabilities" (.list []) m = .list ((listedFirst rt file pid).map Value.str) := by
  obtain ⟨v, hv, hvm⟩ := List.exists_of_findSome?_eq_some hm
  obtain ⟨rfl, hid⟩ := entryOf_eq_some.mp hvm
  obtain ⟨⟨q, held⟩, -, hrow⟩ := hrows.exists_row hv
  obtain ⟨m', he, hid', -, hcaps, -⟩ := validateEntry_eq_ok.mp hrow
  obtain rfl := Value.map.inj he
  obtain rfl : q = pid := Value.str.inj (Option.some.inj (hid'.symm.trans hid))
  have hget : getOr "capabilities" (.list []) m = .list (held.map Value.str) := by
    simp only [getOr, hcaps]
  have hlisted : listedFirst rt file q = held := by
    simp only [listedFirst, hm, hget, strings_map_str]
  rw [hlisted]
  exact ⟨hrow, hget⟩

/-- An entry edited so that it lists other accepted capabilities takes the place of all the
entries of its principal. -/
theorem Validated.replace {l : List Value} {rows : List (String × List String)} {m : Entries}
    {caps : List String} (hrows : Validated rt l rows) (hm : l.findSome? (entryOf pid) = some m)
    (hboot : pid ≠ "system:bootstrap") (hcaps : ∀ cap ∈ caps, validateCap rt cap pid = .ok ()) :
    Validated rt (replaceEntries pid (put "capabilities" (.list (caps.map Value.str)) m) l)
      (upsertRows rows pid caps) := by
  obtain ⟨v, hv, hvm⟩ := List.exists_of_findSome?_eq_some hm
  obtain ⟨rfl, hid⟩ := entryOf_eq_some.mp hvm
  have hany : (rows.any fun row => decide (row.1 = pid)) = true := by
    obtain ⟨row, hrow, hok⟩ := hrows.exists_row hv
    have hsome := isSome_entryOf pid hok
    rw [hvm] at hsome
    exact List.any_eq_true.mpr ⟨row, hrow, hsome.symm⟩
  have hupdated : validateEntry rt (.map (put "capabilities" (.list (caps.map Value.str)) m)) =
      .ok (pid, caps) := by
    refine validateEntry_eq_ok.mpr ⟨_, rfl, ?_, hboot, get_put_self _ _ _, hcaps⟩
    rw [get_put_of_ne _ _ (by decide), hid]
  unfold upsertRows replaceEntries
  rw [if_pos hany]
  refine List.forall₂_map_left_iff.mpr (List.forall₂_map_right_iff.mpr ?_)
  -- an entry is replaced exactly where its row is
  refine hrows.imp ?_
  intro v row hok
  have hsome := isSome_entryOf pid hok
  by_cases hr : row.1 = pid
  · rw [if_pos hr, if_pos (by rw [hsome, decide_eq_true hr]), hupdated]
  · rw [if_neg hr, if_neg (by rw [hsome, decide_eq_false hr]; decide), hok]

/-- The entries a grant writes over an accepted file are accepted when the
permission is, with the rows in which the principal's list has it. -/
theorem Validated.upsert {rows : List (String × List String)} {updated : List Value}
    (hrows : Validated rt (principalsOf rt file) rows) (hboot : pid ≠ "system:bootstrap")
    (hup : upsertGrant (getOr "principals" (.list []) (readOrEmpty rt file)) pid stored =
      some updated)
    (hcap : validateCap rt stored pid = .ok ()) :
    Validated rt updated (upsertRows rows pid (addPerm stored (listedFirst rt file pid))) := by
  rcases upsertGrant_eq_some hup with ⟨hnone, rfl⟩ | ⟨m, caps, hm, hcaps, rfl⟩
  · -- no entry of the principal: none of the rows is its own
    have hany : ¬(rows.any fun row => decide (row.1 = pid)) = true := by
      intro hany
      obtain ⟨row, hrow, hr⟩ := List.any_eq_true.mp hany
      obtain ⟨v, hv, hok⟩ := hrows.exists_entry hrow
      have hsome := isSome_entryOf pid hok
      rw [List.findSome?_eq_none_iff.mp hnone v hv, hr] at hsome
      cases hsome
    have hlisted : listedFirst rt file pid = [] := by simp only [listedFirst, hnone]
    unfold upsertRows
    rw [if_neg hany, hlisted]
    refine List.rel_append hrows (.cons ?_ .nil)
    exact (validateEntry_newEntry hboot).mpr ⟨rfl, hcap⟩
  · -- the first entry is edited, and takes the place of all of them
    obtain ⟨hfirst, hget⟩ := hrows.listedFirst_eq hm
    obtain ⟨m', he, -, -, -, hall⟩ := validateEntry_eq_ok.mp hfirst
    obtain rfl := Value.map.inj he
    obtain rfl : caps = (listedFirst rt file pid).map Value.str :=
      Value.list.inj (hcaps.symm.trans hget)
    rw [addCap_map_str]
    refine hrows.replace hm hboot fun cap hmem => ?_
    rcases mem_addPerm.mp hmem with hold | rfl
    · exact hall cap hold
    · exact hcap

theorem Validated.accepts {rows rows' : List (String × List String)} {updated : List Value}
    (hrows : Validated rt (principalsOf rt file) rows) (hboot : pid ≠ "system:bootstrap")
    (hup : upsertGrant (getOr "principals" (.list []) (readOrEmpty rt file)) pid stored =
      some updated)
    (hrows' : Validated rt updated rows') : validateCap rt stored pid = .ok () := by
  rcases upsertGrant_eq_some hup with ⟨-, rfl⟩ | ⟨m, caps, hm, hcaps, rfl⟩
  · obtain ⟨row, -, hok⟩ := hrows'.exists_row (List.mem_append_right _ (List.mem_singleton_self _))
    exact ((validateEntry_newEntry hboot).mp hok).2
  · obtain ⟨hfirst, hget⟩ := hrows.listedFirst_eq hm
    obtain rfl : caps = (listedFirst rt file pid).map Value.str :=
      Value.list.inj (hcaps.symm.trans hget)
    obtain ⟨v, hv, hvm⟩ := List.exists_of_findSome?_eq_some hm
    have hmem : Value.map (put "capabilities"
        (.list (addCap stored ((listedFirst rt file pid).map Value.str))) m) ∈
          replaceEntries pid (put "capabilities"
            (.list (addCap stored ((listedFirst rt file pid).map Value.str))) m)
            (principalsOf rt file) := by
      refine List.mem_map.mpr ⟨v, hv, ?_⟩
      rw [if_pos (by rw [hvm]; rfl)]
    obtain ⟨⟨q, held⟩, -, hok⟩ := hrows'.exists_row hmem
    obtain ⟨m', he, hid, -, hcaps', hall⟩ := validateEntry_eq_ok.mp hok
    obtain rfl := Value.map.inj he
    rw [get_put_self, addCap_map_str] at hcaps'
    have hheld : addPerm stored (listedFirst rt file pid) = held :=
      List.map_injective_iff.mpr (fun _ _ h => Value.str.inj h)
        (Value.list.inj (Option.some.inj hcaps'))
    rw [get_put_of_ne _ _ (by decide), (entryOf_eq_some.mp hvm).2] at hid
    obtain rfl := Value.str.inj (Option.some.inj hid)
    exact hall stored (hheld ▸ mem_addPerm.mpr (Or.inr rfl))

theorem load_eq_ok {t : Grants.Table} (h : load rt file = .ok t) :
    ∃ rows, Validated rt (principalsOf rt file) rows ∧ t = Ets.empty.insertEach rows := by
  unfold load at h
  split at h
  · obtain rfl := Except.ok.inj h
    exact ⟨[], .nil, rfl⟩
  · rename_i bytes
    split at h
    · cases h
    · rename_i yaml hread
      unfold validate at h
      split at h
      · rename_i m
        have hdoc : readOrEmpty rt (some bytes) = m := by
          simp only [readOrEmpty, readMap, hread, Option.getD_some]
        have hlist : ∀ l, getOr "principals" (.list []) m = .list l →
            principalsOf rt (some bytes) = l := by
          intro l hl
          simp only [principalsOf, hdoc, hl]
        cases hp : get "principals" m with
        | none =>
          rw [hp] at h
          rw [hlist [] (by simp only [getOr, hp])]
          exact validateEntries_eq_ok.mp h
        | some v =>
          rw [hp, Option.getD_some] at h
          cases v with
          | list l =>
            rw [hlist l (by simp only [getOr, hp])]
            exact validateEntries_eq_ok.mp h
          | map pairs =>
            -- only the empty map is enumerated without an error
            cases pairs with
            | nil =>
              obtain rfl := Except.ok.inj h
              refine ⟨[], ?_, rfl⟩
              simp only [principalsOf, hdoc, getOr, hp]
              exact .nil
            | cons pair pairs => cases h
          | _ => cases h
      · cases h

/-! ## Effective grants -/

/-- The document a grant writes. -/
def document (rt : CapRuntime) (file : Option ByteArray) (pid perm : String) : Option Value :=
  (upsertGrant (getOr "principals" (.list []) (readOrEmpty rt file)) pid perm).map fun updated =>
    .map (put "principals" (.list updated) (readOrEmpty rt file))

/-- The YAML reader gives back the document that was written. -/
def ReadsBack (rt : CapRuntime) (doc : Option Value) (file : Option ByteArray) : Prop :=
  ∀ d bytes, doc = some d → file = some bytes → rt.readFromFile bytes = .ok d

/-- The strings a grant of `typed`, stored as `stored`, has to answer for: the
one the operator typed, and the one the checks build from the name of the
workspace whose id is stored. -/
def Spelled (rt : CapRuntime) (typed stored r : String) : Prop :=
  r = typed ∨ ∃ name id perm, rt.uuidForWorkspaceName name = some id ∧
    stored = "workspace:" ++ id ++ "/" ++ perm ∧ r = "workspace:" ++ name ++ "/" ++ perm

/-- The check of `r` for `q` is one the grant of `typed` to `pid` is about. -/
def Matched (resolve : String → Option String) (pid typed q r : String) : Prop :=
  (q = pid ∨ resolve q = some pid) ∧ Grants.capMatches typed r = true

/-- The step from one table to another does what a grant of `typed` to `pid`
says, and nothing else. -/
structure StepEffective (rt : CapRuntime) (resolve : String → Option String)
    (before after : Grants.Table) (pid typed stored : String) : Prop where
  granted : ∀ r, Spelled rt typed stored r → Capability.has resolve after pid r = true
  minimal : ∀ q r, ¬Matched resolve pid typed q r →
    Capability.has resolve after q r = Capability.has resolve before q r
  kept : ∀ q held, before.lookup q = some held →
    ∃ held', after.lookup q = some held' ∧ ∀ h ∈ held, h ∈ held'

/-- The file a grant leaves loads, and loading it over what the file before gave
is an effective step, whatever table was there and whoever is bound to whom. -/
def Effective (rt : CapRuntime) (file file' : Option ByteArray) (pid typed stored : String) :
    Prop :=
  (∃ t, load rt file' = .ok t) ∧
    ∀ (resolve : String → Option String) (table : Grants.Table),
      StepEffective rt resolve (tableAfter rt file table)
        (tableAfter rt file' (tableAfter rt file table)) pid typed stored

/-- What the loaded file gives the principal. -/
def heldIn (rt : CapRuntime) (file : Option ByteArray) (pid : String) : List String :=
  Grants.heldBy (tableAfter rt file Ets.empty) pid

/-- The files and arguments for which a grant does what it says. -/
structure Fits (rt : CapRuntime) (file : Option ByteArray) (pid typed stored : String) :
    Prop where
  /-- The file there is loads. -/
  loads : ∃ t, load rt file = .ok t
  /-- The loader accepts the permission. -/
  accepted : validateCap rt stored pid = .ok ()
  /-- The entry that is edited lists what the principal holds. -/
  listed : ∀ h ∈ heldIn rt file pid, h ∈ listedFirst rt file pid ∨ h = stored
  /-- What it lists besides, and what is stored, is no more than was typed or held. -/
  covered : ∀ b ∈ addPerm stored (listedFirst rt file pid),
    Grants.capMatches typed b = true ∨ ∃ h ∈ heldIn rt file pid, Grants.capMatches h b = true
  /-- It covers what was typed, and the workspace's name. -/
  spelled : ∀ r, Spelled rt typed stored r →
    ∃ b ∈ addPerm stored (listedFirst rt file pid), Grants.capMatches b r = true

theorem tableAfter_of_ok {t table : Grants.Table} (h : load rt file = .ok t) :
    tableAfter rt file table = t := by
  simp only [tableAfter, h]

theorem load_after {cmd : Value} {action : String} {t : Grants.Table}
    (hok : execute rt file cmd = (.ok pid stored action, file'))
    (hread : ReadsBack rt (document rt file pid stored) file') (ht : load rt file = .ok t) :
    (validateCap rt stored pid = .ok () →
      ∃ t', load rt file' = .ok t' ∧ ∀ q, t'.lookup q =
        if q = pid then some (addPerm stored (listedFirst rt file pid)) else t.lookup q) ∧
    (∀ t', load rt file' = .ok t' → validateCap rt stored pid = .ok ()) := by
  obtain ⟨typed, updated, bytes, -, hboot, -, hup, -, rfl⟩ := execute_eq_ok hok
  obtain ⟨rows, hrows, rfl⟩ := load_eq_ok ht
  have hload : load rt (some bytes) = validateEntries rt updated Ets.empty := by
    have hdoc : rt.readFromFile bytes =
        .ok (.map (put "principals" (.list updated) (readOrEmpty rt file))) :=
      hread _ bytes (by rw [document, hup, Option.map_some]) rfl
    simp only [load, hdoc, validate, get_put_self, Option.getD_some]
  constructor
  · intro hcap
    have hrows' := hrows.upsert hboot hup hcap
    refine ⟨_, ?_, lookup_upsertRows rows pid (addPerm stored (listedFirst rt file pid))⟩
    rw [hload]
    exact validateEntries_eq_ok.mpr ⟨_, hrows', rfl⟩
  · intro t' ht'
    rw [hload] at ht'
    obtain ⟨rows', hrows', -⟩ := validateEntries_eq_ok.mp ht'
    exact hrows.accepts hboot hup hrows'

section Tables

variable {t t' : Grants.Table} {caps : List String}

theorem heldBy_eq (hrow : ∀ q, t'.lookup q = if q = pid then some caps else t.lookup q)
    (q : String) : Grants.heldBy t' q = if q = pid then caps else Grants.heldBy t q := by
  unfold Grants.heldBy
  rw [hrow]
  split <;> rfl

theorem has_of_ne (hrow : ∀ q, t'.lookup q = if q = pid then some caps else t.lookup q)
    {q : String} (hne : q ≠ pid) (r : String) : Grants.has t' q r = Grants.has t q r := by
  rw [Grants.has_eq_any, Grants.has_eq_any, heldBy_eq hrow, if_neg hne]

theorem has_self (hrow : ∀ q, t'.lookup q = if q = pid then some caps else t.lookup q)
    {typed r : String} (hmatch : ¬Grants.capMatches typed r = true)
    (hkept : ∀ h ∈ Grants.heldBy t pid, h ∈ caps)
    (hcovered : ∀ b ∈ caps, Grants.capMatches typed b = true ∨
      ∃ h ∈ Grants.heldBy t pid, Grants.capMatches h b = true) :
    Grants.has t' pid r = Grants.has t pid r := by
  rw [Bool.eq_iff_iff, Grants.has_iff_heldBy, Grants.has_iff_heldBy, heldBy_eq hrow, if_pos rfl]
  constructor
  · rintro ⟨b, hb, hbr⟩
    rcases hcovered b hb with htyped | ⟨h, hh, hhb⟩
    · exact absurd (Grants.capMatches_trans htyped hbr) hmatch
    · exact ⟨h, hh, Grants.capMatches_trans hhb hbr⟩
  · rintro ⟨h, hh, hhr⟩
    exact ⟨h, hkept h hh, hhr⟩

end Tables

/-- The permission the operator typed. -/
def typedIn (cmd : Value) : String :=
  match get "permission" (args cmd) with
  | some (.str typed) => typed
  | _ => ""

theorem Fits.effective {cmd : Value} {action typed : String}
    (hok : execute rt file cmd = (.ok pid stored action, file'))
    (hread : ReadsBack rt (document rt file pid stored) file')
    (hfits : Fits rt file pid typed stored) : Effective rt file file' pid typed stored := by
  obtain ⟨t, ht⟩ := hfits.loads
  obtain ⟨t', ht', hrow⟩ := (load_after hok hread ht).1 hfits.accepted
  have hheld : heldIn rt file pid = Grants.heldBy t pid := by
    rw [heldIn, tableAfter_of_ok ht]
  have hkept : ∀ h ∈ Grants.heldBy t pid, h ∈ addPerm stored (listedFirst rt file pid) := by
    intro h hh
    exact mem_addPerm.mpr (hfits.listed h (hheld ▸ hh))
  have hcovered := hheld ▸ hfits.covered
  refine ⟨⟨t', ht'⟩, fun resolve table => ?_⟩
  rw [tableAfter_of_ok ht, tableAfter_of_ok ht']
  constructor
  · intro r hr
    obtain ⟨b, hb, hbr⟩ := hfits.spelled r hr
    refine Capability.has_iff.mpr ⟨pid, Or.inl rfl, Grants.has_iff_heldBy.mpr ⟨b, ?_, hbr⟩⟩
    rwa [heldBy_eq hrow, if_pos rfl]
  · intro q r hunmatched
    -- under each id that `q` is checked by, the row answers as before
    have hsame : ∀ u, (u = q ∨ resolve q = some u) → Grants.has t' u r = Grants.has t u r := by
      intro u hu
      by_cases hp : u = pid
      · subst hp
        refine has_self hrow (fun hmatch => hunmatched ⟨?_, hmatch⟩) hkept hcovered
        exact hu.imp Eq.symm id
      · exact has_of_ne hrow hp r
    rw [Bool.eq_iff_iff, Capability.has_iff, Capability.has_iff]
    constructor
    · rintro ⟨u, hu, hhas⟩
      exact ⟨u, hu, hsame u hu ▸ hhas⟩
    · rintro ⟨u, hu, hhas⟩
      exact ⟨u, hu, (hsame u hu).trans hhas⟩
  · intro q held hheldq
    by_cases hq : q = pid
    · subst hq
      refine ⟨_, by rw [hrow, if_pos rfl], fun h hh => hkept h ?_⟩
      rwa [Grants.heldBy, hheldq, Option.getD_some]
    · exact ⟨held, by rw [hrow, if_neg hq, hheldq], fun h hh => hh⟩

/-- No grant over a file that does not load is effective: what the table held
for another principal cannot both stay and be absent. -/
theorem Effective.loads {typed : String} (heff : Effective rt file file' pid typed stored) :
    ∃ t, load rt file = .ok t := by
  cases hload : load rt file with
  | ok t => exact ⟨t, rfl⟩
  | error e =>
    exfalso
    obtain ⟨⟨t', ht'⟩, hstep⟩ := heff
    have hbefore : ∀ table, tableAfter rt file table = table := by
      intro table
      simp only [tableAfter, hload]
    -- another principal, bound to nobody, with everything in one table and nothing in the other
    have hother : pid ++ "'" ≠ pid := by
      intro he
      have hlen := congrArg String.length he
      simp at hlen
    have hun : ¬Matched (fun _ => none) pid typed (pid ++ "'") "" := by
      rintro ⟨he | he, -⟩
      · exact hother he
      · cases he
    have hfull := (hstep (fun _ => none) (Ets.empty.insert (pid ++ "'") ["*"])).minimal _ _ hun
    have hempty := (hstep (fun _ => none) Ets.empty).minimal _ _ hun
    rw [tableAfter_of_ok ht', hbefore] at hfull hempty
    rw [hfull] at hempty
    have htrue : Capability.has (fun _ => none) (Ets.empty.insert (pid ++ "'") ["*"]) (pid ++ "'")
        "" = true := by
      simp [Capability.has, Grants.has, Grants.capMatches]
    have hfalse : Capability.has (fun _ => none) (Ets.empty : Grants.Table) (pid ++ "'") "" =
        false := by
      simp [Capability.has, Grants.has]
    rw [htrue, hfalse] at hempty
    cases hempty

theorem Effective.fits {cmd : Value} {action typed : String}
    (hok : execute rt file cmd = (.ok pid stored action, file'))
    (hread : ReadsBack rt (document rt file pid stored) file')
    (heff : Effective rt file file' pid typed stored) : Fits rt file pid typed stored := by
  obtain ⟨t, ht⟩ := heff.loads
  obtain ⟨⟨t', ht'⟩, hstep⟩ := heff
  have haccepted := (load_after hok hread ht).2 t' ht'
  obtain ⟨t'', ht'', hrow⟩ := (load_after hok hread ht).1 haccepted
  obtain rfl : t' = t'' := Except.ok.inj (ht'.symm.trans ht'')
  have hheld : heldIn rt file pid = Grants.heldBy t pid := by
    rw [heldIn, tableAfter_of_ok ht]
  have hself : Grants.heldBy t' pid = addPerm stored (listedFirst rt file pid) := by
    rw [heldBy_eq hrow, if_pos rfl]
  -- the tables with nobody bound to anybody say enough
  have hstep' := hstep (fun _ => none) Ets.empty
  rw [tableAfter_of_ok ht, tableAfter_of_ok ht'] at hstep'
  have hunbound : ∀ {u : Grants.Table} {r : String},
      Capability.has (fun _ => none) u pid r = true ↔
        ∃ h ∈ Grants.heldBy u pid, Grants.capMatches h r = true := by
    intro u r
    rw [Capability.has_iff]
    simp [Grants.has_iff_heldBy]
  refine ⟨⟨t, ht⟩, haccepted, ?_, ?_, ?_⟩
  · intro h hh
    rw [hheld] at hh
    cases hl : t.lookup pid with
    | none => simp [Grants.heldBy, hl] at hh
    | some held =>
      obtain ⟨held', hl', hkept⟩ := hstep'.kept pid held hl
      have hmem : h ∈ Grants.heldBy t' pid := by
        rw [Grants.heldBy, hl', Option.getD_some]
        exact hkept h (by simpa [Grants.heldBy, hl] using hh)
      exact mem_addPerm.mp (hself ▸ hmem)
  · intro b hb
    by_cases hmatch : Grants.capMatches typed b = true
    · exact Or.inl hmatch
    · -- `b` itself is a check the grant is not about
      have hsame := hstep'.minimal pid b fun h => hmatch h.2
      have hnow : Capability.has (fun _ => none) t' pid b = true :=
        hunbound.mpr ⟨b, hself ▸ hb, Grants.capMatches_refl b⟩
      rw [hsame] at hnow
      exact Or.inr (hheld ▸ hunbound.mp hnow)
  · intro r hr
    exact hself ▸ hunbound.mp (hstep'.granted r hr)

/-- The bytes are the document, as the writer emits it. -/
def isWritten (bytes : ByteArray) (doc : Value) : Bool :=
  (Writer.encode doc).toOption.any fun text => decide (bytes.data = text.toUTF8.data)

/-- A reader that knows some documents, each by the bytes the writer makes of it. -/
def readerFor (docs : List Value) (bytes : ByteArray) : Except String Value :=
  match docs.find? (isWritten bytes) with
  | some doc => .ok doc
  | none => .error "unexpected text"

theorem exists_written {doc : Value} (h : (Cap.write rt doc).toOption.isSome = true) :
    ∃ bytes, Cap.write rt doc = .ok bytes := by
  cases hw : Cap.write rt doc with
  | ok bytes => exact ⟨bytes, rfl⟩
  | error e =>
    rw [hw] at h
    cases h

theorem text_of_write {doc : Value} {bytes : ByteArray} (h : Cap.write rt doc = .ok bytes) :
    ∃ text, Writer.encode doc = .ok text ∧ bytes = text.toUTF8 := by
  unfold Cap.write at h
  split at h
  · cases h
  · split at h
    · cases h
    · cases h
    · rename_i text htext
      split at h
      · cases h
      · exact ⟨text, htext, (Except.ok.inj h).symm⟩

/-- A document that is written is read back by a reader that knows it, -/
theorem readerFor_write {doc : Value} {docs : List Value} {bytes : ByteArray}
    (h : Cap.write rt doc = .ok bytes) : readerFor (doc :: docs) bytes = .ok doc := by
  obtain ⟨text, htext, rfl⟩ := text_of_write h
  have hwritten : isWritten text.toUTF8 doc = true := by
    simp only [isWritten, htext, Except.toOption, Option.any_some, decide_true]
  simp only [readerFor, List.find?_cons, hwritten]

/-- and not taken for one with another text. -/
theorem readerFor_of_ne {doc other : Value} {docs : List Value} {bytes : ByteArray}
    (h : Cap.write rt doc = .ok bytes)
    (hne : (Writer.encode other).toOption ≠ (Writer.encode doc).toOption) :
    readerFor (other :: docs) bytes = readerFor docs bytes := by
  obtain ⟨text, htext, rfl⟩ := text_of_write h
  have hno : isWritten text.toUTF8 other = false := by
    cases hother : (Writer.encode other).toOption with
    | none => rw [isWritten, hother, Option.any_none]
    | some text' =>
      rw [isWritten, hother, Option.any_some, decide_eq_false_iff_not]
      intro hdata
      rw [hother, htext] at hne
      exact hne (congrArg some (String.toByteArray_inj.mp (ByteArray.ext hdata).symm))
  simp only [readerFor, List.find?_cons, hno]

theorem readsBack_readerFor {cmd : Value} {action : String} {doc : Value} {docs : List Value}
    (hrt : rt.readFromFile = readerFor (doc :: docs))
    (hdoc : document rt file pid stored = some doc)
    (hok : execute rt file cmd = (.ok pid stored action, file')) :
    ReadsBack rt (document rt file pid stored) file' := by
  obtain ⟨typed, updated, bytes, -, -, -, hup, hwrite, rfl⟩ := execute_eq_ok hok
  intro d bytes' hd hb
  obtain rfl := Option.some.inj hb
  obtain rfl : doc = d := Option.some.inj (hdoc.symm.trans hd)
  rw [document, hup, Option.map_some] at hd
  obtain rfl := Option.some.inj hd
  rw [hrt]
  exact readerFor_write hwrite

/-- A runtime with the one workspace `esr-dev`, and the documents its reader
knows. -/
def esrDev (docs : List Value) : CapRuntime where
  readFromFile := readerFor docs
  declared perm := decide (perm ∈ ["session.list", "msg.send"])
  uuidForWorkspaceName name :=
    if name = "esr-dev" then some "7b9f3c1a-0000-4000-8000-000000000000" else none
  mkdirFault := none
  openFault := none

/-- The command that grants `permission` to `ou_alice`. -/
def grantAlice (permission : String) : Value :=
  .map [(.str "args", .map [(.str "permission", .str permission),
    (.str "target_principal_id", .str "ou_alice")])]

/-- What a grant to `ou_alice` writes where there is no file. -/
def aliceDocument (stored : String) : Value :=
  .map [(.str "principals", .list [newEntry "ou_alice" stored])]

theorem execute_alice {typed stored : String} {docs : List Value}
    (h : (execute (esrDev docs) none (grantAlice typed)).1.result =
      some ("ou_alice", stored, "granted")) :
    execute (esrDev docs) none (grantAlice typed) =
      (.ok "ou_alice" stored "granted", (execute (esrDev docs) none (grantAlice typed)).2) :=
  Prod.ext (Reply.result_eq_some h) rfl

end Grant
end Esr
