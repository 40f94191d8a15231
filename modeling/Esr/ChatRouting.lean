import Esr.Runs
import Esr.Ets
import Esr.Yaml
import Mathlib.Data.Finset.Sort
import Mathlib.Data.String.Basic

/-! # The chat-scope routing registry

For each chat and app the registry keeps the sessions attached to it and which of
them is current.  Every change writes the whole table to `chat_attached.yaml`, and
a reload reads it from there.

`Slot.Routed` is the invariant of an entry: the current session is attached, or
there is none and nothing is attached.  `correct_of_readable` is the result about
runs: the operations keep it, each changes the current session only as it should,
and a reload gives back the table written last, if the file is read back as the
document that was written.
-/
namespace Esr
namespace ChatRouting
open Yaml

/-- `%{current: sid | nil, attached: MapSet.t()}`. -/
structure Slot where
  current : Option String
  attached : Finset String
  deriving DecidableEq

/-- `{chat_id, app_id}`. -/
abbrev Key := String × String

abbrev Table := Ets Key Slot

/-- The order in which a `MapSet` is enumerated. -/
structure MapSetOrder where
  toList : Finset String → List String
  mem_toList : ∀ set sid, sid ∈ toList set ↔ sid ∈ set

/-- What the registry sees of the runtime besides: whether `ESRD_HOME` is set, and
the YAML reader. -/
structure Runtime extends MapSetOrder where
  home : Bool
  readFromFile : String → Except String Value

variable (order : MapSetOrder) (rt : Runtime)

/-! ## The operations on the table -/

/-- `handle_call({:attach_session, …})`. -/
def attachSession (t : Table) (key : Key) (uuid : String) : Table :=
  let slot := (t.lookup key).getD ⟨none, ∅⟩
  t.insert key ⟨some (slot.current.getD uuid), insert uuid slot.attached⟩

/-- `handle_call({:set_current_session, …})`, with `none` for
`{:error, :not_attached}`. -/
def setCurrentSession (t : Table) (key : Key) (uuid : String) : Option Table :=
  match t.lookup key with
  | some slot =>
      if uuid ∈ slot.attached then some (t.insert key { slot with current := some uuid })
      else none
  | none => none

/-- A slot without a session, as both kinds of detach make it: the current session
stays unless it is the one that goes. -/
def Slot.without (slot : Slot) (uuid : String) : Slot where
  current :=
    if slot.current ≠ some uuid then slot.current
    else if slot.attached.erase uuid = ∅ then none
    else (order.toList (slot.attached.erase uuid)).head?
  attached := slot.attached.erase uuid

/-- `handle_call({:detach_session, …})`. -/
def detachSession (t : Table) (key : Key) (uuid : String) : Table :=
  match t.lookup key with
  | some slot => t.insert key (slot.without order uuid)
  | none => t

/-- What `detach_session_by_id` does at one row. -/
def detachRow (sid : String) (t : Table) (row : Key × Slot) : Table :=
  if sid ∈ row.2.attached ∨ row.2.current = some sid then
    if (row.2.without order sid).current = none ∧ (row.2.without order sid).attached = ∅ then
      t.delete row.1
    else t.insert row.1 (row.2.without order sid)
  else t

/-- `handle_call({:detach_session_by_id, sid}, …)`. -/
def detachSessionById (t : Table) (sid : String) : Table := t.tab2list.foldl (detachRow order sid) t

/-! ## The file -/

/-- An entry of the file. -/
structure Entry where
  chatId : String
  appId : String
  sessions : List String
  current : Option String

/-- The entries that `persist_attached_to_disk/0` writes. -/
def entries (t : Table) : List Entry :=
  t.tab2list.map fun row => ⟨row.1.1, row.1.2, order.toList row.2.attached, row.2.current⟩

/-- An entry as `FileLoader.write/2` serialises it. -/
def Entry.serialised (e : Entry) : Value :=
  .map [(.str "app_id", .str e.appId), (.str "chat_id", .str e.chatId),
    (.str "current", (e.current.map Value.str).getD .null),
    (.str "sessions", .list (e.sessions.map Value.str))]

/-- The document that is written for a table. -/
def document (t : Table) : Value :=
  .map [(.str "chat_attached", .list ((entries order t).map Entry.serialised))]

/-- `is_binary/1`. -/
def Value.binary? : Value → Option String
  | .str s => some s
  | _ => none

/-- `e["sessions"]` of an entry: the strings in it.  `none` is an exception, from
`Enum.filter/2` on something it cannot enumerate. -/
def loadSessions (m : Entries) : Option (List String) :=
  match getOr "sessions" (.list []) m with
  | .list elems => some (elems.filterMap Value.binary?)
  | .map _ => some []
  | _ => none

/-- One element of the list in the file: no entry unless both ids are strings. -/
def loadEntry : Value → Option (List Entry)
  | .map m =>
      match (get "chat_id" m).bind Value.binary?, (get "app_id" m).bind Value.binary? with
      | some chatId, some appId => do
          let sessions ← loadSessions m
          some [⟨chatId, appId, sessions, (get "current" m).bind Value.binary?⟩]
      | _, _ => some []
  | .null => some []
  | _ => none

/-- The elements of the list, in order. -/
def loadEntries : List Value → Option (List Entry)
  | [] => some []
  | v :: vs => do return (← loadEntry v) ++ (← loadEntries vs)

/-- `FileLoader.load/1` on a document. -/
def loadDocument : Value → Option (List Entry)
  | .map m =>
      match getOr "chat_attached" (.list []) m with
      | .list elems => loadEntries elems
      | .map [] => some []
      | _ => none
  | .null => some []
  | _ => none

/-- The rows that `load_attached_from_disk/0` inserts. -/
def rows (es : List Entry) : List (Key × Slot) :=
  es.map fun e => ((e.chatId, e.appId), ⟨e.current, e.sessions.toFinset⟩)

/-- The table after `handle_call(:reload, …)`.  A file that cannot be read leaves it
cleared, and so does one that makes the loader raise: the registry and its table
are gone then. -/
def reloadTable (file : Option String) : Table :=
  if rt.home then
    match file with
    | none => Ets.empty
    | some text =>
        match rt.readFromFile text with
        | .ok doc => Ets.insertEach Ets.empty (rows ((loadDocument doc).getD []))
        | .error _ => Ets.empty
  else Ets.empty

/-! ## The registry -/

/-- The table and the file, with the table that was written to the file. -/
structure State where
  table : Table
  file : Option String
  persisted : Table

/-- A request; `written` says whether the file could be written. -/
inductive Act where
  | attach (key : Key) (uuid : String) (written : Bool)
  | setCurrent (key : Key) (uuid : String) (written : Bool)
  | detach (key : Key) (uuid : String) (written : Bool)
  | detachById (sid : String) (written : Bool)
  | reload

/-- The state with a new table, which `persist_attached_to_disk/0` writes. -/
def State.persist (s : State) (t : Table) (written : Bool) : State :=
  match Writer.encode (document rt.toMapSetOrder t) with
  | .ok text =>
      if rt.home ∧ written then ⟨t, some text, t⟩ else { s with table := t }
  | .error _ => { s with table := t }

/-- One request. -/
def step (s : State) : Act → Option State
  | .attach key uuid written => some (s.persist rt (attachSession s.table key uuid) written)
  | .setCurrent key uuid written =>
      match setCurrentSession s.table key uuid with
      | some t => some (s.persist rt t written)
      | none => some s
  | .detach key uuid written =>
    some (s.persist rt (detachSession rt.toMapSetOrder s.table key uuid) written)
  | .detachById sid written =>
    some (s.persist rt (detachSessionById rt.toMapSetOrder s.table sid) written)
  | .reload => some { s with table := reloadTable rt s.file }

/-- No chat, and no file. -/
def start : State := ⟨Ets.empty, none, Ets.empty⟩

/-! ## What it should do -/

/-- The current session is attached, or nothing is. -/
def Slot.Routed (slot : Slot) : Prop :=
  match slot.current with
  | some sid => sid ∈ slot.attached
  | none => slot.attached = ∅

/-- The current session of a chat. -/
def current (t : Table) (key : Key) : Option String := (t.lookup key).bind Slot.current

/-- What a request may do to the current sessions, and what a reload gives back. -/
def StepCorrect (s s' : State) : Act → Prop
  | .attach _ _ _ => ∀ key c, current s.table key = some c → current s'.table key = some c
  | .detach key uuid _ => ∀ key', current s'.table key' ≠ current s.table key' →
      key' = key ∧ current s.table key = some uuid
  | .detachById sid _ => ∀ key slot, s'.table.lookup key = some slot →
      sid ∉ slot.attached ∧ slot.current ≠ some sid
  | .reload => ∀ key, s'.table.lookup key = s.persisted.lookup key
  | .setCurrent _ _ _ => True

/-- The file is read back as the document that was written to it. -/
def Readable (s : State) : Prop :=
  ∀ text, s.file = some text → rt.readFromFile text = .ok (document rt.toMapSetOrder s.persisted)

/-- A reload finds a readable file. -/
def ReadsBack (s : State) : Act → Prop
  | .reload => rt.home = true → Readable rt s
  | _ => True

/-! ## Slots -/

section Slots
variable {order}
variable {slot : Slot} {uuid : String}

theorem Slot.current_without_of_ne (h : slot.current ≠ some uuid) :
    (slot.without order uuid).current = slot.current := if_pos h

theorem Slot.current_without_ne : (slot.without order uuid).current ≠ some uuid := by
  by_cases hcur : slot.current = some uuid
  · have hnew : (slot.without order uuid).current = if slot.attached.erase uuid = ∅ then none
        else (order.toList (slot.attached.erase uuid)).head? := if_neg (not_not_intro hcur)
    rw [hnew]
    split
    · simp
    · intro hhead
      have hmem := (order.mem_toList _ _).mp (List.mem_of_head? hhead)
      exact Finset.notMem_erase _ _ hmem
  · rw [Slot.current_without_of_ne hcur]
    exact hcur

theorem Slot.Routed.without (h : slot.Routed) : (slot.without order uuid).Routed := by
  by_cases hcur : slot.current = some uuid
  · have hnew : (slot.without order uuid).current = if slot.attached.erase uuid = ∅ then none
        else (order.toList (slot.attached.erase uuid)).head? := if_neg (not_not_intro hcur)
    unfold Slot.Routed
    rw [hnew]
    by_cases hempty : slot.attached.erase uuid = ∅
    · rw [if_pos hempty]
      exact hempty
    · -- the set is not empty, so its enumeration has a first element
      rw [if_neg hempty]
      obtain ⟨c, hc⟩ := Finset.nonempty_iff_ne_empty.mpr hempty
      cases hl : order.toList (slot.attached.erase uuid) with
      | nil =>
        have hc' := (order.mem_toList _ _).mpr hc
        rw [hl] at hc'
        cases hc'
      | cons first rest => exact (order.mem_toList _ first).mp (hl ▸ List.mem_cons_self)
  · unfold Slot.Routed at h ⊢
    rw [Slot.current_without_of_ne hcur]
    cases hc : slot.current with
    | none =>
      rw [hc] at h
      change slot.attached.erase uuid = ∅
      rw [show slot.attached = ∅ from h, Finset.erase_empty]
    | some c =>
      rw [hc] at h
      have hcu : c ≠ uuid := fun he => hcur (by rw [hc, he])
      exact Finset.mem_erase.mpr ⟨hcu, h⟩

end Slots

/-! ## Tables -/

/-- Every entry is routed. -/
def RoutedTable (t : Table) : Prop := ∀ key slot, t.lookup key = some slot → slot.Routed

section Tables
variable {order} {t : Table}

variable {key : Key} {slot : Slot} {sid : String}

theorem RoutedTable.insert (h : RoutedTable t) (hslot : slot.Routed) :
    RoutedTable (t.insert key slot) := by
  intro key' slot' hrow
  rw [Ets.lookup_insert] at hrow
  split at hrow
  · obtain rfl := Option.some.inj hrow
    exact hslot
  · exact h key' slot' hrow

theorem RoutedTable.attachSession (h : RoutedTable t) (key : Key) (uuid : String) :
    RoutedTable (attachSession t key uuid) := by
  refine h.insert ?_
  cases hrow : t.lookup key with
  | none => exact Finset.mem_insert_self _ _
  | some slot =>
    cases hc : slot.current with
    | none =>
      simp only [Option.getD_some, hc, Option.getD_none]
      exact Finset.mem_insert_self _ _
    | some c =>
      have hmem : c ∈ slot.attached := by simpa [Slot.Routed, hc] using h key slot hrow
      simp only [Option.getD_some, hc]
      exact Finset.mem_insert_of_mem hmem

theorem RoutedTable.setCurrentSession (h : RoutedTable t) {uuid : String} {t' : Table}
    (hset : setCurrentSession t key uuid = some t') : RoutedTable t' := by
  unfold ChatRouting.setCurrentSession at hset
  split at hset
  · obtain ⟨hmem, rfl⟩ := guard_eq_some.mp hset
    exact h.insert hmem
  · cases hset

theorem RoutedTable.detachSession (h : RoutedTable t) (key : Key) (uuid : String) :
    RoutedTable (detachSession order t key uuid) := by
  unfold ChatRouting.detachSession
  split
  · rename_i slot hrow
    exact h.insert (h key slot hrow).without
  · exact h

/-- What `detach_session_by_id` leaves of a slot. -/
def Slot.detached (order : MapSetOrder) (sid : String) (slot : Slot) : Option Slot :=
  if sid ∈ slot.attached ∨ slot.current = some sid then
    if (slot.without order sid).current = none ∧ (slot.without order sid).attached = ∅ then none
    else some (slot.without order sid)
  else some slot

theorem lookup_detachSessionById (sid : String) (key : Key) :
    (detachSessionById order t sid).lookup key = (t.lookup key).bind (Slot.detached order sid) := by
  refine Ets.lookup_foldl_tab2list (g := detachRow order sid)
    (f := fun _ => Slot.detached order sid)
    (fun t k slot k' hrow => ?_) t key
  simp only [detachRow, Slot.detached]
  by_cases htouched : sid ∈ slot.attached ∨ slot.current = some sid
  · by_cases hempty :
        (slot.without order sid).current = none ∧ (slot.without order sid).attached = ∅
    · simp only [if_pos htouched, if_pos hempty]
      exact Ets.lookup_delete t k k'
    · simp only [if_pos htouched, if_neg hempty]
      exact Ets.lookup_insert t k k' _
  · simp only [if_neg htouched]
    by_cases hk : k' = k
    · rw [if_pos hk, hk, hrow]
    · rw [if_neg hk]

theorem Slot.gone_of_detached {slot' : Slot} (hd : slot.detached order sid = some slot') :
    sid ∉ slot'.attached ∧ slot'.current ≠ some sid := by
  unfold Slot.detached at hd
  split at hd
  · obtain ⟨_, he⟩ := Option.ite_none_left_eq_some.mp hd
    obtain rfl := Option.some.inj he
    exact ⟨Finset.notMem_erase _ _, Slot.current_without_ne⟩
  · rename_i hnot
    obtain rfl := Option.some.inj hd
    exact ⟨fun hm => hnot (Or.inl hm), fun hc => hnot (Or.inr hc)⟩

theorem Slot.routed_of_detached {slot' : Slot} (h : slot.Routed)
    (hd : slot.detached order sid = some slot') : slot'.Routed := by
  unfold Slot.detached at hd
  split at hd
  · obtain ⟨_, he⟩ := Option.ite_none_left_eq_some.mp hd
    obtain rfl := Option.some.inj he
    exact h.without
  · obtain rfl := Option.some.inj hd
    exact h

theorem gone_of_detachSessionById (hrow : (detachSessionById order t sid).lookup key = some slot) :
    sid ∉ slot.attached ∧ slot.current ≠ some sid := by
  rw [lookup_detachSessionById, Option.bind_eq_some_iff] at hrow
  obtain ⟨_, _, hd⟩ := hrow
  exact Slot.gone_of_detached hd

theorem RoutedTable.of_detachSessionById (h : RoutedTable t)
    (hrow : (detachSessionById order t sid).lookup key = some slot) :
    slot.Routed ∧ sid ∉ slot.attached ∧ slot.current ≠ some sid := by
  rw [lookup_detachSessionById, Option.bind_eq_some_iff] at hrow
  obtain ⟨old, hold, hd⟩ := hrow
  exact ⟨Slot.routed_of_detached (h key old hold) hd, Slot.gone_of_detached hd⟩

/-! ## Current sessions -/

theorem current_attachSession {key' : Key} {uuid c : String} (hc : current t key' = some c) :
    current (attachSession t key uuid) key' = some c := by
  obtain ⟨slot, hrow, hslot⟩ := Option.bind_eq_some_iff.mp hc
  unfold current attachSession
  rw [Ets.lookup_insert]
  split
  · rename_i hk
    rw [← hk, hrow, Option.getD_some, hslot]
    rfl
  · exact hc

theorem current_detachSession {key' : Key} {uuid : String}
    (hne : current (detachSession order t key uuid) key' ≠ current t key') :
    key' = key ∧ current t key = some uuid := by
  unfold detachSession at hne
  cases hrow : t.lookup key with
  | none =>
    rw [hrow] at hne
    exact absurd rfl hne
  | some slot =>
    simp only [hrow] at hne
    unfold current at hne ⊢
    rw [Ets.lookup_insert] at hne
    by_cases hk : key' = key
    · refine ⟨hk, ?_⟩
      rw [if_pos hk, hk, hrow] at hne
      rw [hrow, Option.bind_some]
      by_contra hcur
      exact hne (Slot.current_without_of_ne hcur)
    · rw [if_neg hk] at hne
      exact absurd rfl hne

/-! ## The file -/

theorem loadEntry_serialised (e : Entry) : loadEntry e.serialised = some [e] := by
  have hsessions : (e.sessions.map Value.str).filterMap Value.binary? = e.sessions := by
    rw [List.filterMap_map]
    exact List.filterMap_some
  have hcurrent : Value.binary? ((e.current.map Value.str).getD .null) = e.current := by
    cases e.current <;> rfl
  have hsome : loadEntry e.serialised = some [⟨e.chatId, e.appId, e.sessions,
      Value.binary? ((e.current.map Value.str).getD .null)⟩] := by
    simp [loadEntry, Entry.serialised, loadSessions, getOr, Yaml.get, Value.binary?, hsessions]
  rw [hsome, hcurrent]

theorem loadEntries_serialised (es : List Entry) :
    loadEntries (es.map Entry.serialised) = some es := by
  induction es with
  | nil => rfl
  | cons e es ih =>
    rw [List.map_cons, loadEntries, loadEntry_serialised, ih]
    rfl

theorem loadDocument_document (t : Table) :
    loadDocument (document order t) = some (entries order t) := by
  have hget : getOr "chat_attached" (.list [])
      [(.str "chat_attached", .list ((entries order t).map Entry.serialised))] =
      .list ((entries order t).map Entry.serialised) := rfl
  simp only [loadDocument, document, hget]
  exact loadEntries_serialised _

theorem rows_entries (t : Table) : rows (entries order t) = t.tab2list := by
  have hset : ∀ set : Finset String, (order.toList set).toFinset = set := by
    intro set
    ext sid
    rw [List.mem_toFinset, order.mem_toList]
  unfold rows entries
  rw [List.map_map]
  refine List.map_id'' (fun row => ?_) _
  simp only [Function.comp_apply, hset]

end Tables

/-! ## Runs -/

structure Inv (s : State) : Prop where
  table : RoutedTable s.table
  persisted : RoutedTable s.persisted
  noFile : s.file = none → ∀ key, s.persisted.lookup key = none
  noHome : rt.home = false → s.file = none
  text : ∀ text, s.file = some text →
    Writer.encode (document rt.toMapSetOrder s.persisted) = .ok text

section Runs
variable {rt} {s s' : State}

theorem Inv.persist (h : Inv rt s) {t : Table} (ht : RoutedTable t) (written : Bool) :
    Inv rt (s.persist rt t written) := by
  have hkeep : Inv rt { s with table := t } :=
    ⟨ht, h.persisted, h.noFile, h.noHome, h.text⟩
  unfold State.persist
  split
  · rename_i text htext
    split
    · rename_i hw
      refine ⟨ht, ht, ?_, fun hhome => ?_, ?_⟩
      · intro hfile
        cases hfile
      · rw [hhome] at hw
        exact absurd hw.1 Bool.false_ne_true
      · intro text' he
        obtain rfl := Option.some.inj he
        exact htext
    · exact hkeep
  · exact hkeep

theorem persist_table (s : State) (t : Table) (written : Bool) :
    (s.persist rt t written).table = t := by
  unfold State.persist
  split
  · split <;> rfl
  · rfl

theorem persist_of_encode (s : State) (hhome : rt.home = true) {t : Table} {text : String}
    (htext : Writer.encode (document rt.toMapSetOrder t) = .ok text) :
    s.persist rt t true = ⟨t, some text, t⟩ := by
  unfold State.persist
  rw [htext]
  exact if_pos ⟨hhome, rfl⟩

/-- **A reload gives back the table that was written.** -/
theorem lookup_reloadTable (h : Inv rt s) (hread : rt.home = true → Readable rt s) (key : Key) :
    (reloadTable rt s.file).lookup key = s.persisted.lookup key := by
  unfold reloadTable
  by_cases hhome : rt.home = true
  · rw [if_pos hhome]
    cases hfile : s.file with
    | none => rw [h.noFile hfile key, Ets.lookup_empty]
    | some text =>
      simp only [hread hhome text hfile, loadDocument_document, Option.getD_some, rows_entries]
      exact Ets.lookup_insertEach_tab2list _ _
  · rw [if_neg hhome, h.noFile (h.noHome (Bool.eq_false_iff.mpr hhome)) key, Ets.lookup_empty]

theorem inv_step (h : Inv rt s) {a : Act} (hread : ReadsBack rt s a)
    (hs : step rt s a = some s') : Inv rt s' := by
  cases a with
  | attach key uuid written =>
    obtain rfl := Option.some.inj hs
    exact h.persist (h.table.attachSession key uuid) written
  | setCurrent key uuid written =>
    simp only [step] at hs
    cases hset : setCurrentSession s.table key uuid with
    | some t =>
      rw [hset] at hs
      obtain rfl := Option.some.inj hs
      exact h.persist (h.table.setCurrentSession hset) written
    | none =>
      rw [hset] at hs
      obtain rfl := Option.some.inj hs
      exact h
  | detach key uuid written =>
    obtain rfl := Option.some.inj hs
    exact h.persist (h.table.detachSession key uuid) written
  | detachById sid written =>
    obtain rfl := Option.some.inj hs
    exact h.persist (fun key slot hrow => (h.table.of_detachSessionById hrow).1) written
  | reload =>
    obtain rfl := Option.some.inj hs
    refine ⟨fun key slot hrow => ?_, h.persisted, h.noFile, h.noHome, h.text⟩
    exact h.persisted key slot ((lookup_reloadTable h hread key).symm.trans hrow)

theorem stepCorrect (h : Inv rt s) {a : Act} (hread : ReadsBack rt s a)
    (hs : step rt s a = some s') : StepCorrect s s' a := by
  cases a with
  | attach key uuid written =>
    obtain rfl := Option.some.inj hs
    intro key' c hc
    rw [persist_table]
    exact current_attachSession hc
  | setCurrent key uuid written => trivial
  | detach key uuid written =>
    obtain rfl := Option.some.inj hs
    intro key' hne
    rw [persist_table] at hne
    exact current_detachSession hne
  | detachById sid written =>
    obtain rfl := Option.some.inj hs
    intro key slot hrow
    rw [persist_table] at hrow
    exact (h.table.of_detachSessionById hrow).2
  | reload =>
    obtain rfl := Option.some.inj hs
    exact lookup_reloadTable h hread

end Runs

theorem inv_start : Inv rt start := by
  refine ⟨fun key slot hrow => ?_, fun key slot hrow => ?_, fun _ _ => rfl, fun _ => rfl,
    fun text hfile => ?_⟩
  · cases hrow
  · cases hrow
  · cases hfile

local instance transLe : IsTrans String fun a b => a ≤ b := inferInstance
local instance antisymmLe : Std.Antisymm fun a b : String => a ≤ b := inferInstance

/-- Small sets are enumerated in term order. -/
def sortedOrder : MapSetOrder where
  toList set := set.sort
  mem_toList set sid := Finset.mem_sort _

/-- A reader that knows what one document's text is read as. -/
def runtimeReading (doc readAs : Value) : Runtime where
  toMapSetOrder := sortedOrder
  home := true
  readFromFile text :=
    match Writer.encode doc with
    | .ok written => if text = written then .ok readAs else .error "yaml"
    | .error _ => .error "yaml"

/-- A table with one chat and two sessions, the second of which goes. -/
def oneChat : Table :=
  detachSession sortedOrder
    (attachSession (attachSession Ets.empty ("oc_dev", "cli_app") "s1") ("oc_dev", "cli_app") "s2")
    ("oc_dev", "cli_app") "s1"

theorem exists_encode {doc : Value} (h : (Writer.encode doc).toOption.isSome = true) :
    ∃ text, Writer.encode doc = .ok text := by
  cases he : Writer.encode doc with
  | ok text => exact ⟨text, rfl⟩
  | error e =>
    rw [he] at h
    cases h

theorem reaches_oneChat (rt : Runtime) (hrt : rt.toMapSetOrder = sortedOrder)
    (hhome : rt.home = true) :
    ∃ text, Writer.encode (document sortedOrder oneChat) = .ok text ∧
      Reaches (step rt) (ReadsBack rt) start ⟨oneChat, some text, oneChat⟩ := by
  obtain ⟨text, htext⟩ := @exists_encode (document sortedOrder oneChat) (by decide +kernel)
  refine ⟨text, htext, ?_⟩
  let s1 := start.persist rt (attachSession Ets.empty ("oc_dev", "cli_app") "s1") true
  let s2 := s1.persist rt (attachSession s1.table ("oc_dev", "cli_app") "s2") true
  let t := detachSession rt.toMapSetOrder s2.table ("oc_dev", "cli_app") "s1"
  have h1 : step rt start (.attach ("oc_dev", "cli_app") "s1" true) = some s1 := rfl
  have h2 : step rt s1 (.attach ("oc_dev", "cli_app") "s2" true) = some s2 := rfl
  have h3 : step rt s2 (.detach ("oc_dev", "cli_app") "s1" true) =
      some (s2.persist rt t true) := rfl
  have ht : t = oneChat := by
    simp only [t, hrt, s2, s1, persist_table]
    rfl
  rw [ht, persist_of_encode s2 hhome (by rw [hrt]; exact htext)] at h3
  have hread : ∀ s a, a ≠ Act.reload → ReadsBack rt s a := by
    intro s a ha
    cases a with
    | reload => exact absurd rfl ha
    | _ => trivial
  exact ⟨_, Run.cons (hread _ _ (by simp)) h1 (Run.cons (hread _ _ (by simp)) h2
    (Run.cons (hread _ _ (by simp)) h3 .nil))⟩

/-- The document of a chat of the app `True`, as YAML has it: an unquoted `True` is
the boolean. -/
def keywordDocument : Value :=
  .map [(.str "chat_attached", .list [.map [(.str "app_id", .bool true),
    (.str "chat_id", .str "oc_dev"), (.str "current", .str "s1"),
    (.str "sessions", .list [.str "s1"])]])]

/-- A chat of that app. -/
def keywordChat : Table := attachSession Ets.empty ("oc_dev", "True") "s1"

end ChatRouting
end Esr
