import Esr.CliExact
import Esr.YamlExact

/-! # What a document can hold

`bulk` counts what a value cannot do without in a document: the characters of its texts and
keys, one for a number and one for a list.  A list counts for more than the text that
`to_string/1` has for it, and so does a key that is no text.  What the lines of a document tell
(`Tells`) is no more than the characters in them, and all that the document is read as was told
by its lines (`node_tells`).
-/
namespace Esr
namespace Yaml
open Reader
open Writer (toStr charsToString)

/-- The characters a key is written with, and one more if it is no text. -/
def keyBulk : Value → Nat
  | .str s => s.length
  | k => ((toStr k).getD "").length + 1

mutual

/-- What a value cannot do without in a document. -/
def bulk : Value → Nat
  | .str s => s.length
  | .int _ => 1
  | .list vs => 1 + bulkList vs
  | .map es => bulkEntries es
  | _ => 0

/-- Of all elements. -/
def bulkList : List Value → Nat
  | [] => 0
  | v :: vs => bulk v + bulkList vs

/-- Of all entries. -/
def bulkEntries : Entries → Nat
  | [] => 0
  | (k, v) :: es => keyBulk k + bulk v + bulkEntries es

end

theorem bulkEntries_cons (e : Value × Value) (es : Entries) :
    bulkEntries (e :: es) = keyBulk e.1 + bulk e.2 + bulkEntries es := by
  rw [bulkEntries]

theorem bulkEntries_perm {es es' : Entries} (h : es.Perm es') :
    bulkEntries es = bulkEntries es' := by
  induction h with
  | nil => rfl
  | cons e _ ih => rw [bulkEntries_cons, bulkEntries_cons, ih]
  | swap e e' es =>
    simp only [bulkEntries_cons]
    omega
  | trans _ _ ih ih' => exact ih.trans ih'

theorem length_charsToString : ∀ {vs : List Value} {t : String}, charsToString vs = some t →
    t.length ≤ bulkList vs
  | [], t, h => by
    rw [charsToString] at h
    cases h
    exact Nat.le_refl _
  | .int n :: rest, t, h => by
    rw [charsToString] at h
    split at h
    · obtain ⟨s, hs, rfl⟩ := Option.map_eq_some_iff.mp h
      have hrest := length_charsToString hs
      simp only [String.length_append, String.length_singleton, bulkList, bulk]
      omega
    · cases h
  | .str t' :: rest, t, h => by
    rw [charsToString] at h
    obtain ⟨s, hs, rfl⟩ := Option.map_eq_some_iff.mp h
    have hrest := length_charsToString hs
    simp only [String.length_append, bulkList, bulk]
    omega
  | .list l :: rest, t, h => by
    rw [charsToString] at h
    obtain ⟨t', ht', h⟩ := Option.bind_eq_some_iff.mp h
    obtain ⟨s, hs, rfl⟩ := Option.map_eq_some_iff.mp h
    have hlist := length_charsToString ht'
    have hrest := length_charsToString hs
    simp only [String.length_append, bulkList, bulk]
    omega
  | .null :: _, _, h | .bool _ :: _, _, h | .float _ :: _, _, h | .map _ :: _, _, h => by
    simp [charsToString] at h

theorem length_toStr {k : Value} {t : String} (h : toStr k = some t) :
    t.length ≤ keyBulk k ∧ (t.length = keyBulk k → k = .str t) := by
  unfold keyBulk
  split
  · cases h
    exact ⟨Nat.le_refl _, fun _ => rfl⟩
  · rw [h, Option.getD_some]
    exact ⟨Nat.le_succ _, fun hsame => absurd hsame (Nat.ne_of_lt (Nat.lt_succ_self _))⟩

namespace Reader
variable (P : Profile)

/-- A line tells so much: an item behind its dash, an entry whose key is a text, or a scalar. -/
inductive Tells : List Char → Nat → Prop
  | dash {cs : List Char} (hdash : isDash cs = true) (hblank : afterDash cs = []) : Tells cs 1
  | item {cs : List Char} {n : Nat} (hdash : isDash cs = true) (h : Tells (afterDash cs) n) :
      Tells cs (n + 1)
  | key {cs key rest : List Char} {k : String} (hdash : isDash cs = false)
      (hcut : cutKey cs = some (key, rest)) (hkey : keyOf P key = some (.str k))
      (hblank : strip rest = []) : Tells cs k.length
  | entry {cs key rest : List Char} {k : String} {v : Value} (hdash : isDash cs = false)
      (hcut : cutKey cs = some (key, rest)) (hkey : keyOf P key = some (.str k))
      (hflow : flow P rest = some v) : Tells cs (k.length + bulk v)
  | scalar {cs : List Char} {v : Value} (hdash : isDash cs = false) (hcut : cutKey cs = none)
      (hflow : flow P cs = some v) : Tells cs (bulk v)

/-- What lines tell together. -/
inductive TellsAll : List Line → Nat → Prop
  | nil : TellsAll [] 0
  | cons {l : Line} {ls : List Line} {n m : Nat} (h : Tells P l.text n) (hs : TellsAll ls m) :
      TellsAll (l :: ls) (n + m)

variable {P : Profile}

variable {ls : List Line} {block : List Line → Option Value}

theorem tellsAll_cons {l : Line} {n : Nat} (h : TellsAll P (l :: ls) n) :
    ∃ a b, Tells P l.text a ∧ TellsAll P ls b ∧ n = a + b := by
  cases h with
  | cons h hs => exact ⟨_, _, h, hs, rfl⟩

theorem tellsAll_append {ls' : List Line} {n : Nat} :
    TellsAll P (ls ++ ls') n ↔ ∃ m m', TellsAll P ls m ∧ TellsAll P ls' m' ∧ n = m + m' := by
  constructor
  · intro h
    induction ls generalizing n with
    | nil => exact ⟨0, n, .nil, h, (Nat.zero_add n).symm⟩
    | cons l ls ih =>
      obtain ⟨a, b, ha, hb, rfl⟩ := tellsAll_cons h
      obtain ⟨m, m', hm, hm', rfl⟩ := ih hb
      exact ⟨a + m, m', .cons ha hm, hm', (Nat.add_assoc ..).symm⟩
  · rintro ⟨m, m', hm, hm', rfl⟩
    induction hm with
    | nil => simpa using hm'
    | cons h _ ih =>
      rw [Nat.add_assoc]
      exact .cons h ih

theorem says_of_tells {cs : List Char} {n : Nat} (h : Tells P cs n) : ∃ m, Says P cs m := by
  induction h with
  | dash hdash hblank => exact ⟨_, .dash hdash hblank⟩
  | item hdash _ ih => exact ⟨_, .item hdash ih.choose_spec⟩
  | key hdash hcut hkey hblank => exact ⟨_, .key hdash hcut hkey hblank⟩
  | entry hdash hcut hkey hflow => exact ⟨_, .entry hdash hcut hkey hflow⟩
  | scalar hdash hcut hflow => exact ⟨_, .scalar hdash hcut hflow⟩

theorem saysAll_of_tellsAll {n : Nat} (h : TellsAll P ls n) : ∃ m, SaysAll P ls m := by
  induction h with
  | nil => exact ⟨0, .nil⟩
  | cons h _ ih =>
    obtain ⟨m, hm⟩ := ih
    obtain ⟨a, ha⟩ := says_of_tells h
    exact ⟨a + m, .cons ha hm⟩

/-! ## Nodes -/

theorem entry_tells {es es' : Entries} {g : Group}
    (hblock : ∀ ls v, block ls = some v → ∃ n, TellsAll P ls n ∧ bulk v ≤ n)
    (h : entry P block es g = some es') :
    ∃ n, TellsAll P (g.1 :: g.2) n ∧ bulkEntries es' ≤ bulkEntries es + n := by
  obtain ⟨key, v, hread, hget, rfl⟩ := entry_inv h
  have htells : ∃ n, TellsAll P (g.1 :: g.2) n ∧ key.length + bulk v ≤ n := by
    have hdash : ∀ {cs rest : List Char}, cutKey g.1.text = some (cs, rest) →
        keyOf P cs = some (.str key) → isDash g.1.text = false := by
      intro cs rest hcut hkey
      rw [← Bool.not_eq_true]
      intro hdash
      rw [keyOf_dash hdash hcut] at hkey
      cases hkey
    cases hread with
    | below cs rest hcut hkey hblank hvalue =>
      obtain ⟨n, hn, hle⟩ := hblock _ _ hvalue
      exact ⟨_, .cons (.key (hdash hcut hkey) hcut hkey hblank) hn, Nat.add_le_add_left hle _⟩
    | behind cs rest hcut hkey hblank hnone hvalue =>
      rw [hnone]
      exact ⟨_, .cons (.entry (hdash hcut hkey) hcut hkey hvalue) .nil, Nat.le_refl _⟩
  obtain ⟨n, hn, hle⟩ := htells
  refine ⟨n, hn, ?_⟩
  rw [bulkEntries_perm (put_perm hget), bulkEntries_cons]
  dsimp only [keyBulk]
  omega

theorem entries_tell {gs : List Group} {es es' : Entries}
    (hblock : ∀ ls v, block ls = some v → ∃ n, TellsAll P ls n ∧ bulk v ≤ n)
    (h : gs.foldlM (entry P block) es = some es') :
    ∃ n, TellsAll P (ungroup gs) n ∧ bulkEntries es' ≤ bulkEntries es + n := by
  induction gs generalizing es with
  | nil =>
    cases h
    exact ⟨0, .nil, Nat.le_refl _⟩
  | cons g gs ih =>
    rw [List.foldlM_cons] at h
    obtain ⟨es₁, hes₁, h⟩ := Option.bind_eq_some_iff.mp h
    obtain ⟨n, hn, hle⟩ := entry_tells hblock hes₁
    obtain ⟨m, hm, hle'⟩ := ih h
    exact ⟨n + m, tellsAll_append.mpr ⟨n, m, hn, hm, rfl⟩, by omega⟩

theorem item_tells {g : Group} {v : Value}
    (hblock : ∀ ls v, block ls = some v → ∃ n, TellsAll P ls n ∧ bulk v ≤ n)
    (h : item block g = some v) : ∃ n, TellsAll P (g.1 :: g.2) n ∧ bulk v + 1 ≤ n := by
  rw [item] at h
  split at h
  · rename_i hdash
    obtain ⟨n, hn, hle⟩ := hblock _ _ h
    rw [itemLines] at hn
    split at hn
    · rename_i hblank
      exact ⟨1 + n, .cons (.dash hdash hblank) hn, by omega⟩
    · obtain ⟨a, b, ha, hb, rfl⟩ := tellsAll_cons hn
      exact ⟨a + 1 + b, .cons (.item hdash ha) hb, by omega⟩
  · cases h

theorem items_tell {gs : List Group} {vs : List Value}
    (hblock : ∀ ls v, block ls = some v → ∃ n, TellsAll P ls n ∧ bulk v ≤ n)
    (h : gs.mapM (item block) = some vs) :
    ∃ n, TellsAll P (ungroup gs) n ∧ bulkList vs + gs.length ≤ n := by
  induction gs generalizing vs with
  | nil =>
    cases h
    exact ⟨0, .nil, Nat.le_refl _⟩
  | cons g gs ih =>
    rw [List.mapM_cons] at h
    obtain ⟨v, hv, h⟩ := Option.bind_eq_some_iff.mp h
    obtain ⟨vs', hvs, h⟩ := Option.bind_eq_some_iff.mp h
    cases h
    obtain ⟨n, hn, hle⟩ := item_tells hblock hv
    obtain ⟨m, hm, hle'⟩ := ih hvs
    refine ⟨n + m, tellsAll_append.mpr ⟨n, m, hn, hm, rfl⟩, ?_⟩
    rw [bulkList, List.length_cons]
    omega

/-- **What a node is read as was told by its lines.** -/
theorem node_tells {fuel : Nat} {ls : List Line} {v : Value} (h : node P fuel ls = some v) :
    ∃ n, TellsAll P ls n ∧ bulk v ≤ n := by
  induction fuel generalizing ls v with
  | zero =>
    cases ls with
    | nil =>
      cases h
      exact ⟨0, .nil, Nat.le_refl _⟩
    | cons l ls => cases h
  | succ fuel ih =>
    have hblock : ∀ ls v, node P fuel ls = some v → ∃ n, TellsAll P ls n ∧ bulk v ≤ n :=
      fun _ _ => ih
    cases node_inv h with
    | nil => exact ⟨0, .nil, Nat.le_refl _⟩
    | sequence l ls gs vs hgroups hread =>
      obtain ⟨n, hn, hle⟩ := items_tell hblock hread
      have hpos := List.length_pos_iff.mpr (groups_ne_nil hgroups)
      rw [lines_of_groups hgroups]
      refine ⟨n, hn, ?_⟩
      rw [bulk]
      omega
    | mapping l ls gs es hgroups hread =>
      obtain ⟨n, hn, hle⟩ := entries_tell hblock hread
      rw [lines_of_groups hgroups]
      refine ⟨n, hn, ?_⟩
      rwa [bulkEntries, Nat.zero_add] at hle
    | scalar l v hdash hcut hflow => exact ⟨_, .cons (.scalar hdash hcut hflow) .nil, Nat.le_refl _⟩

end Reader
end Yaml
end Esr
