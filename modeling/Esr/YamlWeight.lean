import Esr.YamlInversion

/-! # What a document says

`weight` counts the characters of the texts in a value, and its empty maps.  Whatever a
document is read as, the lines of the document account for it: every line is read by
itself as a key and a scalar at most (`Says`), and the weight of the value is what the
lines say together (`node_says`).  How the lines are indented does not matter for it.  So
of a text whose lines say less than a value weighs, the value is not read.
-/
namespace Esr
namespace Yaml

mutual

/-- The characters of the texts in a value, and one for each empty map. -/
def weight : Value → Nat
  | .str s => s.length
  | .list vs => weightList vs
  | .map [] => 1
  | .map (e :: es) => weightEntries (e :: es)
  | _ => 0

/-- Of all elements. -/
def weightList : List Value → Nat
  | [] => 0
  | v :: vs => weight v + weightList vs

/-- Of all entries. -/
def weightEntries : Entries → Nat
  | [] => 0
  | (k, v) :: es => weight k + weight v + weightEntries es

end

theorem weightEntries_cons (e : Value × Value) (es : Entries) :
    weightEntries (e :: es) = weight e.1 + weight e.2 + weightEntries es := by
  rw [weightEntries]

theorem weight_map {es : Entries} (h : es ≠ []) : weight (.map es) = weightEntries es := by
  cases es with
  | nil => exact absurd rfl h
  | cons e es => rw [weight]

theorem weightEntries_put {key : String} {v : Value} {es : Entries} (h : get key es = none) :
    weightEntries (put key v es) = weightEntries es + (key.length + weight v) := by
  induction es with
  | nil => simp [put, weightEntries, weight]
  | cons e es ih =>
    rw [get_cons] at h
    split at h
    · cases h
    · rename_i hne
      rw [put, if_neg hne]
      split
      · simp only [weightEntries_cons, weight]
        omega
      · simp only [weightEntries_cons, ih h]
        omega

namespace Reader
variable (P : Profile)

/-- A line is read as text of so many characters: an item behind its dash, an entry, or a
scalar. -/
inductive Says : List Char → Nat → Prop
  | dash {cs : List Char} (hdash : isDash cs = true) (hblank : afterDash cs = []) : Says cs 0
  | item {cs : List Char} {n : Nat} (hdash : isDash cs = true) (h : Says (afterDash cs) n) :
      Says cs n
  | key {cs key rest : List Char} {k : Value} (hdash : isDash cs = false)
      (hcut : cutKey cs = some (key, rest)) (hkey : keyOf P key = some k)
      (hblank : strip rest = []) : Says cs (weight k)
  | entry {cs key rest : List Char} {k v : Value} (hdash : isDash cs = false)
      (hcut : cutKey cs = some (key, rest)) (hkey : keyOf P key = some k)
      (hflow : flow P rest = some v) : Says cs (weight k + weight v)
  | scalar {cs : List Char} {v : Value} (hdash : isDash cs = false) (hcut : cutKey cs = none)
      (hflow : flow P cs = some v) : Says cs (weight v)

/-- What lines say together. -/
inductive SaysAll : List Line → Nat → Prop
  | nil : SaysAll [] 0
  | cons {l : Line} {ls : List Line} {n m : Nat} (h : Says P l.text n) (hs : SaysAll ls m) :
      SaysAll (l :: ls) (n + m)

variable {P : Profile}

theorem saysAll_cons {l : Line} {ls : List Line} {n : Nat} (h : SaysAll P (l :: ls) n) :
    ∃ a b, Says P l.text a ∧ SaysAll P ls b ∧ n = a + b := by
  cases h with
  | cons h hs => exact ⟨_, _, h, hs, rfl⟩

theorem saysAll_append {ls ls' : List Line} {n : Nat} :
    SaysAll P (ls ++ ls') n ↔ ∃ m m', SaysAll P ls m ∧ SaysAll P ls' m' ∧ n = m + m' := by
  constructor
  · intro h
    induction ls generalizing n with
    | nil => exact ⟨0, n, .nil, h, (Nat.zero_add n).symm⟩
    | cons l ls ih =>
      cases h with
      | cons h hs =>
        obtain ⟨m, m', hm, hm', rfl⟩ := ih hs
        exact ⟨_, m', .cons h hm, hm', (Nat.add_assoc ..).symm⟩
  · rintro ⟨m, m', hm, hm', rfl⟩
    induction hm with
    | nil => simpa using hm'
    | cons h _ ih =>
      rw [Nat.add_assoc]
      exact .cons h ih

theorem keyOf_dash {cs key rest : List Char} (hdash : isDash cs = true)
    (hcut : cutKey cs = some (key, rest)) : keyOf P key = none := by
  obtain ⟨cs, rfl, hnext⟩ : ∃ cs', cs = '-' :: cs' ∧ followed cs' = false := by
    unfold isDash at hdash
    split at hdash
    · exact ⟨_, rfl, by simpa using hdash⟩
    · cases hdash
  have hkey : ∃ key', key = '-' :: key' ∧ followed key' = false := by
    have hcolon : cutColon ('-' :: cs) = some (key, rest) := hcut
    rw [cutColon, if_neg (by simp)] at hcolon
    obtain ⟨⟨a, b⟩, hab, hpair⟩ := Option.map_eq_some_iff.mp hcolon
    obtain ⟨rfl, rfl⟩ := Prod.mk.inj hpair
    refine ⟨a, rfl, ?_⟩
    cases cs with
    | nil => cases hab
    | cons c cs =>
      have hblank : isBlank c = true := by simpa [followed] using hnext
      have hc : c ≠ ':' := by
        rintro rfl
        cases hblank
      rw [cutColon, if_neg (by simp [hc])] at hab
      obtain ⟨p, -, hp⟩ := Option.map_eq_some_iff.mp hab
      obtain ⟨rfl, -⟩ := Prod.mk.inj hp
      simpa [followed] using hblank
  obtain ⟨key', rfl, hnext'⟩ := hkey
  have hstripped : ∃ key'', ('-' :: key').rdropWhile isBlank = '-' :: key'' ∧
      followed key'' = false := by
    obtain ⟨x, hx⟩ := List.rdropWhile_prefix isBlank (l := '-' :: key')
    cases hd : ('-' :: key').rdropWhile isBlank with
    | nil => exact absurd (List.rdropWhile_eq_nil_iff.mp hd '-' List.mem_cons_self) (by decide)
    | cons c cs' =>
      rw [hd] at hx
      obtain ⟨rfl, rfl⟩ := List.cons.inj hx
      refine ⟨cs', rfl, ?_⟩
      cases cs' with
      | nil => rfl
      | cons c cs' => exact hnext'
  obtain ⟨key'', hk, hnext''⟩ := hstripped
  rw [keyOf, hk]
  split
  · simp [scalar, isPlain, hnext'', isIndicator]
  · rfl

/-! ## Nodes -/

variable {block : List Line → Option Value}

theorem entry_says {es es' : Entries} {g : Group}
    (hblock : ∀ ls v, block ls = some v → SaysAll P ls (weight v))
    (h : entry P block es g = some es') :
    ∃ n, SaysAll P (g.1 :: g.2) n ∧ weightEntries es' = weightEntries es + n ∧ es' ≠ [] := by
  obtain ⟨key, v, hread, hget, rfl⟩ := entry_inv h
  have hsays : SaysAll P (g.1 :: g.2) (key.length + weight v) := by
    have hdash : ∀ {cs rest : List Char}, cutKey g.1.text = some (cs, rest) →
        keyOf P cs = some (.str key) → isDash g.1.text = false := by
      intro cs rest hcut hkey
      rw [← Bool.not_eq_true]
      intro hdash
      rw [keyOf_dash hdash hcut] at hkey
      cases hkey
    have hweight : weight (.str key) = key.length := by rw [weight]
    rw [← hweight]
    cases hread with
    | below cs rest hcut hkey hblank hvalue =>
      exact .cons (.key (hdash hcut hkey) hcut hkey hblank) (hblock _ _ hvalue)
    | behind cs rest hcut hkey hblank hnone hvalue =>
      rw [hnone]
      exact SaysAll.cons (n := _ + weight v) (.entry (hdash hcut hkey) hcut hkey hvalue) .nil
  refine ⟨_, hsays, weightEntries_put hget, ?_⟩
  cases es with
  | nil => simp [put]
  | cons e es =>
    unfold put
    split
    · simp
    · split <;> simp

theorem item_says {g : Group} {v : Value}
    (hblock : ∀ ls v, block ls = some v → SaysAll P ls (weight v)) (h : item block g = some v) :
    SaysAll P (g.1 :: g.2) (weight v) := by
  rw [item] at h
  split at h
  · rename_i hdash
    have hlines := hblock _ _ h
    rw [itemLines] at hlines
    split at hlines
    · rename_i hblank
      rw [← Nat.zero_add (weight v)]
      exact .cons (.dash hdash hblank) hlines
    · obtain ⟨a, b, h, hs, hweight⟩ := saysAll_cons hlines
      rw [hweight]
      exact .cons (.item hdash h) hs
  · cases h

theorem items_say {gs : List Group} {vs : List Value}
    (hblock : ∀ ls v, block ls = some v → SaysAll P ls (weight v))
    (h : gs.mapM (item block) = some vs) : SaysAll P (ungroup gs) (weightList vs) := by
  induction gs generalizing vs with
  | nil => cases h; exact .nil
  | cons g gs ih =>
    rw [List.mapM_cons] at h
    obtain ⟨v, hv, h⟩ := Option.bind_eq_some_iff.mp h
    obtain ⟨vs', hvs, h⟩ := Option.bind_eq_some_iff.mp h
    cases h
    exact saysAll_append.mpr ⟨_, _, item_says hblock hv, ih hvs, rfl⟩

theorem entries_say {gs : List Group} {es es' : Entries}
    (hblock : ∀ ls v, block ls = some v → SaysAll P ls (weight v))
    (h : gs.foldlM (entry P block) es = some es') :
    ∃ n, SaysAll P (ungroup gs) n ∧ weightEntries es' = weightEntries es + n ∧
      (gs ≠ [] → es' ≠ []) := by
  induction gs generalizing es with
  | nil => cases h; exact ⟨0, .nil, rfl, fun hne => absurd rfl hne⟩
  | cons g gs ih =>
    rw [List.foldlM_cons] at h
    obtain ⟨es₁, hes₁, h⟩ := Option.bind_eq_some_iff.mp h
    obtain ⟨n, hn, hweight, hne⟩ := entry_says hblock hes₁
    obtain ⟨m, hm, hweight', hne'⟩ := ih h
    refine ⟨n + m, saysAll_append.mpr ⟨n, m, hn, hm, rfl⟩, by omega, fun _ => ?_⟩
    cases gs with
    | nil => cases h; exact hne
    | cons g' gs => exact hne' (by simp)

/-- **What a node is read as, its lines say.** -/
theorem node_says {fuel : Nat} {ls : List Line} {v : Value} (h : node P fuel ls = some v) :
    SaysAll P ls (weight v) := by
  induction fuel generalizing ls v with
  | zero =>
    cases ls with
    | nil => cases h; exact .nil
    | cons l ls => cases h
  | succ fuel ih =>
    have hblock : ∀ ls v, node P fuel ls = some v → SaysAll P ls (weight v) := fun _ _ => ih
    cases node_inv h with
    | nil => exact .nil
    | sequence l ls gs vs hgroups hread =>
      rw [lines_of_groups hgroups]
      exact items_say hblock hread
    | mapping l ls gs es hgroups hread =>
      obtain ⟨n, hn, hweight, hne⟩ := entries_say hblock hread
      rw [lines_of_groups hgroups, weight_map (hne (groups_ne_nil hgroups)), hweight]
      simpa [weightEntries] using hn
    | scalar l v hdash hcut hflow =>
      rw [← Nat.add_zero (weight v)]
      exact .cons (.scalar hdash hcut hflow) .nil

end Reader
end Yaml
end Esr
