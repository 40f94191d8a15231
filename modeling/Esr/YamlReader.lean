import Mathlib.Algebra.GroupWithZero.Nat
import Mathlib.Data.List.DropRight
import Esr.IntegerTexts
import Esr.Percent
import Esr.Yaml

/-! # A reader of YAML

The part of YAML 1.2 that a plain configuration file is written in, read by the core
schema: block mappings and block sequences, nested by indentation and in the compact
form; scalars on one line, plain or between double quotes with escapes of one letter or of
four digits; and
the empty flow collections.  A text outside this part is not read (`none`), which says
nothing about what another reader makes of it; what is read is what the standard says of
the text.

`Reads` has the rules by which lines are read as a value.
-/
namespace Esr
namespace Yaml
namespace Reader

/-! ## Characters -/

/-- `s-white`. -/
def isBlank (c : Char) : Bool := c = ' ' || c = '\t'

/-- `nb-char`: what is printable, but for the line breaks and the byte order mark. -/
def isPrintable (c : Char) : Bool :=
  c = '\t' || (32 ≤ c.toNat && c.toNat ≤ 126) || c.toNat = 0x85 ||
    (0xA0 ≤ c.toNat && c.toNat ≤ 0xFFFD && c.toNat ≠ 0xFEFF) || 0x10000 ≤ c.toNat

/-- `nb-json`: what may stand between double quotes. -/
def isJson (c : Char) : Bool := c = '\t' || 32 ≤ c.toNat

/-- `c-indicator`. -/
def isIndicator (c : Char) : Bool := "-?:,[]\x7b\x7d#&*!|>'\"%@`".toList.contains c

/-- Something that is no blank comes next. -/
def followed : List Char → Bool
  | c :: _ => !isBlank c
  | [] => false

/-! ## Scalars -/

/-- `nb-ns-plain-in-line` after the character `before`. -/
def plainRest (before : Char) : List Char → Bool
  | [] => true
  | c :: cs =>
      isPrintable c && (c ≠ ':' || followed cs) && (c ≠ '#' || !isBlank before) && plainRest c cs

/-- `ns-plain-one-line`, but for blanks at the end. -/
def isPlain : List Char → Bool
  | [] => false
  | c :: cs =>
      isPrintable c && !isBlank c && (!isIndicator c || ("-?:".toList.contains c && followed cs)) &&
        plainRest c cs

/-- The escapes of one letter. -/
def escape : Char → Option Char
  | '0' => some '\x00'
  | 'a' => some '\x07'
  | 'b' => some '\x08'
  | 't' | '\t' => some '\t'
  | 'n' => some '\n'
  | 'v' => some '\x0b'
  | 'f' => some '\x0c'
  | 'r' => some '\r'
  | 'e' => some '\x1b'
  | ' ' => some ' '
  | '"' => some '"'
  | '/' => some '/'
  | '\\' => some '\\'
  | 'N' => some '\u0085'
  | '_' => some '\u00a0'
  | 'L' => some '\u2028'
  | 'P' => some '\u2029'
  | _ => none

/-- The character with this number in hexadecimal. -/
def unicode (a b c d : Char) : Option Char := do
  let n := 4096 * (← hexDigit a) + 256 * (← hexDigit b) + 16 * (← hexDigit c) + (← hexDigit d)
  if n.isValidChar then some (Char.ofNat n) else none

/-- The text up to the closing quote, and what comes after it. -/
def quotedRest : List Char → Option (List Char × List Char)
  | [] => none
  | '"' :: cs => some ([], cs)
  | '\\' :: [] => none
  | '\\' :: 'u' :: a :: b :: c :: d :: cs =>
      (unicode a b c d).bind fun x => (quotedRest cs).map fun p => (x :: p.1, p.2)
  | '\\' :: e :: cs => (escape e).bind fun c => (quotedRest cs).map fun p => (c :: p.1, p.2)
  | c :: cs => if isJson c then (quotedRest cs).map fun p => (c :: p.1, p.2) else none

/-! ## The core schema -/

/-- The number that digits of this base are. -/
def baseValue (base : Nat) (cs : List Char) : Option Int :=
  if cs = [] then none
  else (cs.mapM fun c => (hexDigit c).filter (· < base)).map fun ds =>
    ((ds.foldl (fun n d => base * n + d) 0 : Nat) : Int)

/-- `[-+]?[0-9]+`, `0o[0-7]+` and `0x[0-9a-fA-F]+`. -/
def coreInt (s : String) : Option Int :=
  if signedDigits s then some (intValue s)
  else match s.toList with
    | '0' :: 'o' :: ds => baseValue 8 ds
    | '0' :: 'x' :: ds => baseValue 16 ds
    | _ => none

/-- `([eE][-+]?[0-9]+)?`. -/
def isExponent : List Char → Bool
  | [] => true
  | c :: cs => (c = 'e' || c = 'E') && (signOf cs).2 ≠ [] && (signOf cs).2.all Char.isDigit

/-- `\.[0-9]+|[0-9]+(\.[0-9]*)?` and an exponent. -/
def isDecimal (cs : List Char) : Bool :=
  match cs.dropWhile Char.isDigit with
  | '.' :: rest =>
      (cs.takeWhile Char.isDigit ≠ [] || rest.takeWhile Char.isDigit ≠ []) &&
        isExponent (rest.dropWhile Char.isDigit)
  | rest => cs.takeWhile Char.isDigit ≠ [] && isExponent rest

/-- The texts of floats. -/
def coreFloat (s : String) : Bool :=
  isDecimal (signOf s.toList).2 ||
    [".inf", ".Inf", ".INF"].contains (String.ofList (signOf s.toList).2) ||
    [".nan", ".NaN", ".NAN"].contains s

/-- What is left open: the text by which the float of a text is known, and the characters
that plain scalars are read of, which may be fewer than the standard has. -/
structure Profile where
  floatText : String → String
  plain : Char → Bool

/-- The value of a plain scalar. -/
def resolve (P : Profile) (s : String) : Value :=
  if s ∈ ["null", "Null", "NULL", "~"] then .null
  else if s ∈ ["true", "True", "TRUE"] then .bool true
  else if s ∈ ["false", "False", "FALSE"] then .bool false
  else match coreInt s with
    | some n => .int n
    | none => if coreFloat s then .float (P.floatText s) else .str s

/-! ## Nodes on one line -/

variable (P : Profile)

/-- A scalar, without blanks around it. -/
def scalar (cs : List Char) : Option Value :=
  match cs with
  | '"' :: rest =>
      match quotedRest rest with
      | some (s, []) => some (.str (String.ofList s))
      | _ => none
  | _ => if isPlain cs && cs.all P.plain then some (resolve P (String.ofList cs)) else none

/-- Spaces before, and blanks after it. -/
def strip (cs : List Char) : List Char := (cs.dropWhile (· == ' ')).rdropWhile isBlank

/-- A scalar or an empty collection. -/
def flow (cs : List Char) : Option Value :=
  if strip cs = ['\x7b', '\x7d'] then some (.map [])
  else if strip cs = ['[', ']'] then some (.list [])
  else scalar P (strip cs)

/-- The text before a colon that ends a plain key, and what comes after it. -/
def cutColon : List Char → Option (List Char × List Char)
  | [] => none
  | c :: cs =>
      if c = ':' && !followed cs then some ([], cs)
      else (cutColon cs).map fun p => (c :: p.1, p.2)

/-- The key of an entry, and what comes after the colon. -/
def cutKey (cs : List Char) : Option (List Char × List Char) :=
  match cs with
  | '"' :: rest =>
      match quotedRest rest with
      | some (_, after) =>
          match cutColon after with
          | some (gap, value) =>
              if gap.all isBlank then some (cs.take (rest.length - after.length + 1), value) else none
          | none => none
      | none => none
  | _ => cutColon cs

/-- What a key stands for; a key may have 1024 characters. -/
def keyOf (cs : List Char) : Option Value :=
  if cs.length ≤ 1024 then scalar P (cs.rdropWhile isBlank) else none

/-! ## Blocks -/

/-- A line that is not blank: its indentation, and the rest. -/
structure Line where
  indent : Nat
  text : List Char
deriving DecidableEq

/-- The lines at an indentation, each with the deeper ones below it; and the deeper ones
before the first. -/
def groups (i : Nat) : List Line → Option (List Line × List (Line × List Line))
  | [] => some ([], [])
  | l :: ls => do
      let (deeper, gs) ← groups i ls
      if l.indent = i then some ([], (l, deeper) :: gs)
      else if i < l.indent then some (l :: deeper, gs)
      else none

/-- The line begins an item of a sequence. -/
def isDash : List Char → Bool
  | '-' :: cs => !followed cs
  | _ => false

/-- What stands behind a dash. -/
def afterDash (cs : List Char) : List Char := (cs.drop 1).dropWhile (· == ' ')

/-- An item that stands behind its dash, as a line of its own. -/
def behindDash (l : Line) : Line :=
  ⟨l.indent + (l.text.length - (afterDash l.text).length), afterDash l.text⟩

/-- An entry more; keys are texts, and there is one entry for each. -/
def insertEntry (k v : Value) (es : Entries) : Option Entries :=
  match k with
  | .str key => if (get key es).isSome then none else some (put key v es)
  | _ => none

/-- A line of a block and the deeper lines below it. -/
abbrev Group := Line × List Line

/-- The lines of an item, without its dash. -/
def itemLines (g : Group) : List Line :=
  if (behindDash g.1).text = [] then g.2 else behindDash g.1 :: g.2

/-- An item of a sequence, with `block` to read what is deeper. -/
def item (block : List Line → Option Value) (g : Group) : Option Value :=
  if isDash g.1.text then block (itemLines g) else none

/-- An entry of a mapping, after those before it. -/
def entry (block : List Line → Option Value) (es : Entries) (g : Group) : Option Entries :=
  match cutKey g.1.text with
  | some (key, rest) =>
      match keyOf P key,
        if strip rest = [] then block g.2 else if g.2 = [] then flow P rest else none with
      | some k, some v => insertEntry k v es
      | _, _ => none
  | none => none

/-- The node that the lines are. -/
def node : Nat → List Line → Option Value
  | _, [] => some .null
  | 0, _ :: _ => none
  | fuel + 1, l :: ls =>
      if isDash l.text then
        match groups l.indent (l :: ls) with
        | some ([], gs) => (gs.mapM (item (node fuel))).map .list
        | _ => none
      else if (cutKey l.text).isSome then
        match groups l.indent (l :: ls) with
        | some ([], gs) => (gs.foldlM (entry P (node fuel)) []).map .map
        | _ => none
      else if ls = [] then flow P l.text
      else none

/-! ## Documents -/

/-- The line of a text, if it is not blank. -/
def lineOf (cs : List Char) : Option Line :=
  let text := cs.dropWhile (· == ' ')
  if text.all isBlank then none else some ⟨cs.length - text.length, text⟩

/-- The line separates documents. -/
def isMarker (l : Line) : Bool :=
  l.indent = 0 && (l.text.take 3 = "---".toList || l.text.take 3 = "...".toList) &&
    !followed (l.text.drop 3)

/-- The lines of a text that are not blank. -/
def linesOf (cs : List Char) : List Line := (cs.splitOn '\n').filterMap lineOf

/-- The document that the text is. -/
def read (text : String) : Option Value :=
  let ls := linesOf text.toList
  if ls.any isMarker then none else node P text.length ls

/-! ## Groups -/

/-- The lines of groups, one group after the other. -/
def ungroup (gs : List Group) : List Line := gs.flatMap fun g => g.1 :: g.2

/-- The group is at the indentation. -/
structure At (i : Nat) (g : Group) : Prop where
  head : g.1.indent = i
  deeper : ∀ l ∈ g.2, i < l.indent

theorem groups_deeper {i : Nat} {body ls : List Line} {gs : List Group}
    (hbody : ∀ l ∈ body, i < l.indent) (hls : groups i ls = some ([], gs)) :
    groups i (body ++ ls) = some (body, gs) := by
  induction body with
  | nil => exact hls
  | cons l body ih =>
    have hl := hbody l List.mem_cons_self
    rw [List.cons_append, groups, ih fun l hl => hbody l (List.mem_cons_of_mem _ hl)]
    simp [Nat.ne_of_gt hl, hl]

theorem groups_ungroup {i : Nat} {gs : List Group} (h : ∀ g ∈ gs, At i g) :
    groups i (ungroup gs) = some ([], gs) := by
  induction gs with
  | nil => rfl
  | cons g gs ih =>
    obtain ⟨hhead, hdeeper⟩ := h g List.mem_cons_self
    have hrest := ih fun g hg => h g (List.mem_cons_of_mem _ hg)
    show groups i (g.1 :: (g.2 ++ ungroup gs)) = _
    rw [groups, groups_deeper hdeeper hrest]
    simp [hhead]

/-! ## Rules for nodes -/

/-- The characters of lines. -/
def size (ls : List Line) : Nat := (ls.map fun l => l.text.length).sum

@[simp] theorem size_nil : size [] = 0 := rfl

@[simp] theorem size_cons (l : Line) (ls : List Line) :
    size (l :: ls) = l.text.length + size ls := by
  simp [size]

@[simp] theorem size_append (ls ls' : List Line) : size (ls ++ ls') = size ls + size ls' := by
  simp [size]

theorem size_le_ungroup {g : Group} {gs : List Group} (hg : g ∈ gs) :
    size (g.1 :: g.2) ≤ size (ungroup gs) := by
  induction gs with
  | nil => cases hg
  | cons g' gs ih =>
    rw [show ungroup (g' :: gs) = (g'.1 :: g'.2) ++ ungroup gs from rfl, size_append]
    rcases List.mem_cons.mp hg with rfl | hg
    · exact Nat.le_add_right _ _
    · exact Nat.le_trans (ih hg) (Nat.le_add_left _ _)

/-- The lines are read as the value: with fuel for each of their characters. -/
def Reads (ls : List Line) (v : Value) : Prop := ∀ fuel, size ls ≤ fuel → node P fuel ls = some v

theorem reads_nil : Reads P [] .null := by
  intro fuel _
  cases fuel <;> rfl

theorem size_itemLines {g : Group} (h : isDash g.1.text = true) :
    size (itemLines g) < size (g.1 :: g.2) := by
  obtain ⟨⟨i, text⟩, deeper⟩ := g
  cases text with
  | nil => cases h
  | cons c cs =>
    have hdrop := List.length_dropWhile_le (· == ' ') cs
    unfold itemLines
    split
    · simp
    · simp only [behindDash, afterDash, List.drop_succ_cons, List.drop_zero, size_cons, List.length_cons]
      omega

theorem mapM_item {fuel : Nat} {gs : List Group} {vs : List Value}
    (hdash : ∀ g ∈ gs, isDash g.1.text = true) (hfuel : ∀ g ∈ gs, size (itemLines g) ≤ fuel)
    (hitems : List.Forall₂ (fun g v => Reads P (itemLines g) v) gs vs) :
    gs.mapM (item (node P fuel)) = some vs := by
  induction hitems with
  | nil => rfl
  | @cons g v gs vs hg _ ih =>
    have hitem : item (node P fuel) g = some v := by
      rw [item, if_pos (hdash g List.mem_cons_self), hg fuel (hfuel g List.mem_cons_self)]
    have hrest := ih (fun g hg => hdash g (List.mem_cons_of_mem _ hg)) fun g hg =>
      hfuel g (List.mem_cons_of_mem _ hg)
    rw [List.mapM_cons, hitem, hrest]
    rfl

/-- **A sequence** is read item by item. -/
theorem reads_sequence {i : Nat} {gs : List Group} {vs : List Value} (hne : gs ≠ [])
    (hat : ∀ g ∈ gs, At i g) (hdash : ∀ g ∈ gs, isDash g.1.text = true)
    (hitems : List.Forall₂ (fun g v => Reads P (itemLines g) v) gs vs) :
    Reads P (ungroup gs) (.list vs) := by
  intro fuel hfuel
  have hless : ∀ g ∈ gs, size (itemLines g) < fuel := fun g hg =>
    Nat.lt_of_lt_of_le (size_itemLines (hdash g hg)) (Nat.le_trans (size_le_ungroup hg) hfuel)
  have hgroups := groups_ungroup hat
  obtain ⟨g, gs, rfl⟩ := List.exists_cons_of_ne_nil hne
  cases fuel with
  | zero => exact absurd (hless g List.mem_cons_self) (Nat.not_lt_zero _)
  | succ fuel =>
    rw [show ungroup (g :: gs) = g.1 :: (g.2 ++ ungroup gs) from rfl] at hgroups ⊢
    rw [node, if_pos (hdash g List.mem_cons_self), (hat g List.mem_cons_self).head, hgroups]
    dsimp only
    rw [mapM_item P hdash (fun g hg => Nat.le_of_lt_succ (hless g hg)) hitems]
    rfl

/-- The group is an entry with this key and this value, that stands behind the key or on
the lines below it. -/
inductive IsEntry (g : Group) (e : Value × Value) : Prop
  | below (key rest : List Char) (hcut : cutKey g.1.text = some (key, rest))
      (hkey : keyOf P key = some e.1) (hblank : strip rest = []) (hread : Reads P g.2 e.2)
  | behind (key rest : List Char) (hcut : cutKey g.1.text = some (key, rest))
      (hkey : keyOf P key = some e.1) (hblank : strip rest ≠ []) (hnone : g.2 = [])
      (hflow : flow P rest = some e.2)

/-- The keys are texts, the first before the second. -/
def Before (e e' : Value × Value) : Prop := ∃ s t, e.1 = .str s ∧ e'.1 = .str t ∧ s < t

theorem before_str {s t : String} (v w : Value) (h : s < t) : Before (.str s, v) (.str t, w) :=
  ⟨s, t, rfl, rfl, h⟩

theorem before_asymm {e e' : Value × Value} (h : Before e e') : ¬Before e' e := by
  rintro ⟨s', t', hs', ht', hlt'⟩
  obtain ⟨s, t, hs, ht, hlt⟩ := h
  rw [hs] at ht'
  rw [ht] at hs'
  cases ht'
  cases hs'
  exact String.lt_asymm hlt hlt'

theorem get_eq_none {key : String} {es : Entries} :
    get key es = none ↔ ∀ e ∈ es, e.1 ≠ .str key := by
  induction es with
  | nil => simp [get]
  | cons e es ih =>
    rw [get_cons, List.forall_mem_cons, ← ih]
    by_cases he : e.1.isStr key = true
    · simp [Value.isStr_iff.mp he]
    · rw [if_neg he]
      exact ⟨fun h => ⟨fun heq => he (Value.isStr_iff.mpr heq), h⟩, fun h => h.2⟩

theorem put_perm {key : String} {v : Value} {es : Entries} (h : get key es = none) :
    (put key v es).Perm ((.str key, v) :: es) := by
  induction es with
  | nil => exact .refl _
  | cons e es ih =>
    rw [get_cons] at h
    split at h
    · cases h
    · rename_i hne
      rw [put, if_neg hne]
      split
      · exact .refl _
      · exact ((ih h).cons e).trans (.swap ..)

theorem put_before {key : String} {v : Value} {es : Entries} (h : get key es = none)
    (hkeys : ∀ e ∈ es, ∃ k, e.1 = .str k) (hsorted : es.Pairwise Before) :
    (put key v es).Pairwise Before := by
  induction es with
  | nil => exact List.pairwise_singleton ..
  | cons e es ih =>
    obtain ⟨hhead, htail⟩ := List.pairwise_cons.mp hsorted
    obtain ⟨k, hk⟩ := hkeys e List.mem_cons_self
    rw [get_cons] at h
    split at h
    · cases h
    · rename_i hne
      rw [put, if_neg hne]
      split
      · rename_i hafter
        have hlt : key < k := by simpa [hk, Value.isAfter] using hafter
        refine List.pairwise_cons.mpr ⟨?_, hsorted⟩
        rintro e' he'
        rcases List.mem_cons.mp he' with rfl | he'
        · exact ⟨key, k, rfl, hk, hlt⟩
        · obtain ⟨s, t, hs, ht, hst⟩ := hhead e' he'
          rw [hk] at hs
          cases hs
          exact ⟨key, t, rfl, ht, String.lt_trans hlt hst⟩
      · rename_i hafter
        have hle : k ≤ key := by
          rw [← String.not_lt]
          simpa [hk, Value.isAfter] using hafter
        have hlt : k < key := by
          rw [← Std.not_le]
          intro hge
          exact hne (Value.isStr_iff.mpr (by rw [hk, String.le_antisymm hle hge]))
        refine List.pairwise_cons.mpr ⟨?_, ih h (fun e he => hkeys e (List.mem_cons_of_mem _ he)) htail⟩
        intro e' he'
        rcases List.mem_cons.mp ((put_perm h).mem_iff.mp he') with rfl | he'
        · exact ⟨k, key, hk, rfl, hlt⟩
        · exact hhead e' he'

theorem eq_of_perm {es es' : Entries} (h : es.Pairwise Before) (h' : es'.Pairwise Before)
    (hperm : es.Perm es') : es = es' :=
  hperm.eq_of_pairwise (fun _ _ _ _ hb hb' => absurd hb' (before_asymm hb)) h h'

theorem IsEntry.cutKey {P : Profile} {g : Group} {e : Value × Value} (h : IsEntry P g e) :
    (cutKey g.1.text).isSome = true := by
  cases h with
  | below key rest hcut => rw [hcut]; rfl
  | behind key rest hcut => rw [hcut]; rfl

theorem size_below {g : Group} (h : (cutKey g.1.text).isSome = true) :
    size g.2 < size (g.1 :: g.2) := by
  rw [size_cons]
  cases htext : g.1.text with
  | nil => rw [htext] at h; cases h
  | cons c cs => exact Nat.lt_add_of_pos_left (Nat.succ_pos _)

theorem foldlM_entry {fuel : Nat} {gs : List Group} {es acc : Entries}
    (hfuel : ∀ g ∈ gs, size g.2 ≤ fuel) (hentries : List.Forall₂ (IsEntry P) gs es)
    (hkeys : ∀ e ∈ es, ∃ key, e.1 = .str key) (hdistinct : es.Pairwise fun e e' => e.1 ≠ e'.1)
    (hacc : acc.Pairwise Before) (hacckeys : ∀ a ∈ acc, ∃ key, a.1 = .str key)
    (hnew : ∀ e ∈ es, ∀ a ∈ acc, a.1 ≠ e.1) :
    ∃ r, gs.foldlM (entry P (node P fuel)) acc = some r ∧ r.Pairwise Before ∧
      r.Perm (acc ++ es) := by
  induction hentries generalizing acc with
  | nil => exact ⟨acc, rfl, hacc, by simp⟩
  | @cons g e gs es hg _ ih =>
    obtain ⟨hhead, htail⟩ := List.pairwise_cons.mp hdistinct
    obtain ⟨k, v⟩ := e
    obtain ⟨key, rfl⟩ := hkeys _ List.mem_cons_self
    have hget : get key acc = none :=
      get_eq_none.mpr fun a ha => hnew _ List.mem_cons_self a ha
    have hentry : entry P (node P fuel) acc g = some (put key v acc) := by
      have hinsert : insertEntry (.str key) v acc = some (put key v acc) := by
        rw [insertEntry, hget]
        rfl
      cases hg with
      | below k rest hcut hk hblank hread =>
        rw [entry, hcut]
        dsimp only
        rw [hk, if_pos hblank, hread fuel (hfuel g List.mem_cons_self)]
        exact hinsert
      | behind k rest hcut hk hblank hnone hflow =>
        rw [entry, hcut]
        dsimp only
        rw [hk, if_neg hblank, if_pos hnone, hflow]
        exact hinsert
    have hperm := @put_perm key v acc hget
    obtain ⟨r, hr, hsorted, hr'⟩ := @ih (put key v acc)
      (fun g hg => hfuel g (List.mem_cons_of_mem _ hg))
      (fun e he => hkeys e (List.mem_cons_of_mem _ he)) htail (put_before hget hacckeys hacc)
      (fun a ha => by
        rcases List.mem_cons.mp (hperm.mem_iff.mp ha) with rfl | ha
        · exact ⟨key, rfl⟩
        · exact hacckeys a ha)
      (fun e' he' a ha => by
        rcases List.mem_cons.mp (hperm.mem_iff.mp ha) with rfl | ha
        · exact hhead e' he'
        · exact hnew e' (List.mem_cons_of_mem _ he') a ha)
    refine ⟨r, ?_, hsorted, hr'.trans ?_⟩
    · rw [List.foldlM_cons, hentry]
      exact hr
    · exact (hperm.append_right es).trans List.perm_middle.symm

/-- **A mapping** is read entry by entry; the entries may stand in any order. -/
theorem reads_mapping {i : Nat} {gs : List Group} {es es' : Entries} (hne : gs ≠ [])
    (hat : ∀ g ∈ gs, At i g) (hdash : ∀ g ∈ gs, isDash g.1.text = false)
    (hentries : List.Forall₂ (IsEntry P) gs es') (hperm : es'.Perm es)
    (hkeys : ∀ e ∈ es, ∃ key, e.1 = .str key) (hsorted : es.Pairwise Before) :
    Reads P (ungroup gs) (.map es) := by
  intro fuel hfuel
  have hcut : ∀ g ∈ gs, (cutKey g.1.text).isSome = true := by
    intro g hg
    obtain ⟨j, hj, rfl⟩ := List.getElem_of_mem hg
    exact (List.Forall₂.get hentries hj (hentries.length_eq ▸ hj)).cutKey
  have hless : ∀ g ∈ gs, size g.2 < fuel := fun g hg =>
    Nat.lt_of_lt_of_le (size_below (hcut g hg)) (Nat.le_trans (size_le_ungroup hg) hfuel)
  have hgroups := groups_ungroup hat
  have hdistinct : es'.Pairwise fun e e' => e.1 ≠ e'.1 := by
    refine (hperm.pairwise_iff fun h => Ne.symm h).mpr (hsorted.imp ?_)
    rintro e e' ⟨s, t, hs, ht, hlt⟩ heq
    rw [hs, ht] at heq
    cases heq
    exact String.lt_irrefl _ hlt
  obtain ⟨g, gs, rfl⟩ := List.exists_cons_of_ne_nil hne
  have hnot : ¬isDash g.1.text = true := by rw [hdash g List.mem_cons_self]; decide
  cases fuel with
  | zero => exact absurd (hless g List.mem_cons_self) (Nat.not_lt_zero _)
  | succ fuel =>
    obtain ⟨r, hr, hr', hrperm⟩ := @foldlM_entry P fuel (g :: gs) es' []
      (fun g hg => Nat.le_of_lt_succ (hless g hg)) hentries
      (fun e he => hkeys e (hperm.mem_iff.mp he)) hdistinct .nil (by simp) (by simp)
    obtain rfl := eq_of_perm hr' hsorted (hrperm.trans hperm)
    rw [show ungroup (g :: gs) = g.1 :: (g.2 ++ ungroup gs) from rfl] at hgroups ⊢
    rw [node, if_neg hnot, if_pos (hcut g List.mem_cons_self),
      (hat g List.mem_cons_self).head, hgroups]
    dsimp only
    rw [hr]
    rfl

/-! ## Scalars on a line of their own -/

section
variable {P : Profile} {cs t bl : List Char} {v : Value}

theorem quotedRest_other {c : Char} (hquote : c ≠ '"') (hescape : c ≠ '\\') (cs : List Char) :
    quotedRest (c :: cs) =
      if isJson c then (quotedRest cs).map fun p => (c :: p.1, p.2) else none := by
  rw [quotedRest]
  · exact hquote
  · exact fun h _ => hescape h
  · exact fun _ _ _ _ _ h _ => hescape h
  · exact fun _ _ h _ => hescape h

theorem quotedRest_letter {e : Char} (he : e ≠ 'u') (cs : List Char) :
    quotedRest ('\\' :: e :: cs) =
      (escape e).bind fun c => (quotedRest cs).map fun p => (c :: p.1, p.2) := by
  rw [quotedRest]
  exact fun _ _ _ _ _ h _ => he h

theorem map_cons_eq_some {o : Option (List Char × List Char)} {c : Char} {w r : List Char} :
    (o.map fun p => (c :: p.1, p.2)) = some (w, r) ↔ ∃ w', w = c :: w' ∧ o = some (w', r) := by
  constructor
  · intro h
    obtain ⟨p, hp, hpair⟩ := Option.map_eq_some_iff.mp h
    obtain ⟨rfl, rfl⟩ := Prod.mk.inj hpair
    exact ⟨p.1, rfl, hp⟩
  · rintro ⟨w', rfl, rfl⟩
    rfl

theorem quotedRest_short {cs : List Char} (h : cs.length < 4) :
    quotedRest ('\\' :: 'u' :: cs) = none := by
  rw [quotedRest]
  · rfl
  · rintro a b c d cs' - rfl
    simp only [List.length_cons] at h
    omega

/-- The text is read from the characters, and the rest comes after the closing quote. -/
inductive Quoted : List Char → List Char → List Char → Prop
  | close (r : List Char) : Quoted ('"' :: r) [] r
  | long {a b c d x : Char} {cs w r : List Char} (hx : unicode a b c d = some x)
      (h : Quoted cs w r) : Quoted ('\\' :: 'u' :: a :: b :: c :: d :: cs) (x :: w) r
  | short {e c : Char} {cs w r : List Char} (hlong : e ≠ 'u') (hc : escape e = some c)
      (h : Quoted cs w r) : Quoted ('\\' :: e :: cs) (c :: w) r
  | other {c : Char} {cs w r : List Char} (hquote : c ≠ '"') (hescape : c ≠ '\\')
      (hjson : isJson c = true) (h : Quoted cs w r) : Quoted (c :: cs) (c :: w) r

theorem quotedRest_of_quoted {cs w r : List Char} (h : Quoted cs w r) :
    quotedRest cs = some (w, r) := by
  induction h with
  | close r => rfl
  | long hx _ ih => rw [quotedRest, hx, Option.bind_some, ih]; rfl
  | short hlong hc _ ih => rw [quotedRest_letter hlong, hc, Option.bind_some, ih]; rfl
  | other hquote hescape hjson _ ih => rw [quotedRest_other hquote hescape, if_pos hjson, ih]; rfl

/-- **How a text between quotes is read.** -/
theorem quotedRest_iff {cs w r : List Char} : quotedRest cs = some (w, r) ↔ Quoted cs w r := by
  refine ⟨fun h => ?_, quotedRest_of_quoted⟩
  induction cs using quotedRest.induct generalizing w r with
  | case1 => cases h
  | case2 cs =>
    obtain ⟨rfl, rfl⟩ := Prod.mk.inj (Option.some.inj h)
    exact .close _
  | case3 => cases h
  | case4 a b c d cs ih =>
    rw [quotedRest] at h
    obtain ⟨x, hx, h⟩ := Option.bind_eq_some_iff.mp h
    obtain ⟨w, rfl, hp⟩ := map_cons_eq_some.mp h
    exact .long hx (ih hp)
  | case5 e cs hlong ih =>
    by_cases he : e = 'u'
    · subst he
      have hshort : cs.length < 4 := by
        rcases cs with _ | ⟨a, _ | ⟨b, _ | ⟨c, _ | ⟨d, cs⟩⟩⟩⟩ <;>
          first | exact absurd rfl (hlong _ _ _ _ _ rfl) | simp
      rw [quotedRest_short hshort] at h
      cases h
    · rw [quotedRest_letter he] at h
      obtain ⟨c, hc, h⟩ := Option.bind_eq_some_iff.mp h
      obtain ⟨w, rfl, hp⟩ := map_cons_eq_some.mp h
      exact .short he hc (ih hp)
  | case6 c cs hquote hend hlong hescape hjson ih =>
    rw [quotedRest, if_pos hjson] at h
    · obtain ⟨w, rfl, hp⟩ := map_cons_eq_some.mp h
      have hne : c ≠ '\\' := by
        intro hc
        cases cs with
        | nil => exact hend hc rfl
        | cons e cs => exact hescape e cs hc rfl
      exact .other hquote hne hjson (ih hp)
    all_goals assumption
  | case7 c cs hquote hend hlong hescape hjson =>
    rw [quotedRest, if_neg hjson] at h
    · cases h
    all_goals assumption

theorem quotedRest_append {cs s r : List Char} (more : List Char) (h : quotedRest cs = some (s, r)) :
    quotedRest (cs ++ more) = some (s, r ++ more) := by
  rw [quotedRest_iff] at h ⊢
  induction h with
  | close r => exact .close _
  | long hx _ ih => exact .long hx ih
  | short hlong hc _ ih => exact .short hlong hc ih
  | other hquote hescape hjson _ ih => exact .other hquote hescape hjson ih

theorem followed_append {cs : List Char} (more : List Char) (h : followed cs = true) :
    followed (cs ++ more) = true := by
  cases cs with
  | nil => cases h
  | cons c cs => exact h

theorem cutColon_blank (h : ∀ c ∈ bl, isBlank c = true) : cutColon bl = none := by
  induction bl with
  | nil => rfl
  | cons c bl ih =>
    have hc : c ≠ ':' := by
      rintro rfl
      cases h _ List.mem_cons_self
    rw [cutColon, if_neg (by simp [hc]), ih fun c hc => h c (List.mem_cons_of_mem _ hc)]
    rfl

theorem cutColon_cons {c : Char} {key rest : List Char} (h : cutColon (c :: cs) = some (key, rest)) :
    c = ':' ∧ followed cs = false ∧ key = [] ∧ rest = cs ∨
      ∃ key', key = c :: key' ∧ cutColon cs = some (key', rest) := by
  rw [cutColon] at h
  split at h
  · rename_i hc
    obtain ⟨rfl, rfl⟩ := Prod.mk.inj (Option.some.inj h)
    simp only [Bool.and_eq_true, decide_eq_true_eq, Bool.not_eq_true'] at hc
    exact .inl ⟨hc.1, hc.2, rfl, rfl⟩
  · exact .inr (map_cons_eq_some.mp h)

theorem eq_of_cutColon {key rest : List Char} (h : cutColon cs = some (key, rest)) :
    cs = key ++ ':' :: rest := by
  induction cs generalizing key with
  | nil => cases h
  | cons c cs ih =>
    rcases cutColon_cons h with ⟨rfl, -, rfl, rfl⟩ | ⟨key, rfl, hkey⟩
    · rfl
    · rw [ih hkey]
      rfl

theorem cutColon_plainRest {before : Char} (ht : plainRest before t = true)
    (hbl : ∀ c ∈ bl, isBlank c = true) : cutColon (t ++ bl) = none := by
  induction t generalizing before with
  | nil => exact cutColon_blank hbl
  | cons c t ih =>
    simp only [plainRest, Bool.and_eq_true, Bool.or_eq_true, decide_eq_true_eq] at ht
    obtain ⟨⟨⟨-, hcolon⟩, -⟩, hrest⟩ := ht
    rw [List.cons_append, cutColon, ih hrest]
    by_cases hc : c = ':'
    · have hnext := followed_append bl (hcolon.resolve_left (by simpa using hc))
      simp [hnext]
    · simp [hc]

theorem isPlain_cons (h : isPlain cs = true) : ∃ c cs', cs = c :: cs' ∧ isPrintable c = true ∧
    isBlank c = false ∧ (isIndicator c = false ∨ followed cs' = true) ∧
      plainRest c cs' = true := by
  cases cs with
  | nil => cases h
  | cons c cs =>
    simp only [isPlain, Bool.and_eq_true, Bool.or_eq_true, Bool.not_eq_true'] at h
    obtain ⟨⟨⟨hprint, hblank⟩, hind⟩, hrest⟩ := h
    exact ⟨c, cs, rfl, hprint, hblank, hind.imp_right And.right, hrest⟩

theorem isDash_of_scalar (h : scalar P t = some v) (more : List Char) :
    isDash (t ++ more) = false := by
  unfold scalar at h
  split at h
  · rfl
  · split at h
    · rename_i hplain
      obtain ⟨c, t, rfl, -, -, hind, -⟩ := isPlain_cons (Bool.and_eq_true_iff.mp hplain).1
      by_cases hc : c = '-'
      · subst hc
        have hnext := followed_append more (hind.resolve_left (by decide))
        simp [isDash, hnext]
      · unfold isDash
        split
        · rename_i heq
          exact absurd (List.cons.inj heq).1 hc
        · rfl
    · cases h

theorem cutKey_of_scalar (h : scalar P t = some v) (hbl : ∀ c ∈ bl, isBlank c = true) :
    cutKey (t ++ bl) = none := by
  unfold scalar at h
  split at h
  · split at h
    · rename_i s hquoted
      rw [List.cons_append, cutKey, quotedRest_append bl hquoted, List.nil_append]
      dsimp only
      rw [cutColon_blank hbl]
    · cases h
  · rename_i hquote
    split at h
    · rename_i hplain
      obtain ⟨c, t, rfl, -, -, hind, hrest⟩ := isPlain_cons (Bool.and_eq_true_iff.mp hplain).1
      rw [List.cons_append, cutKey]
      · rw [cutColon, cutColon_plainRest hrest hbl]
        by_cases hc : c = ':'
        · subst hc
          have hnext := followed_append bl (hind.resolve_left (by decide))
          simp [hnext]
        · simp [hc]
      · exact fun rest heq => hquote _ (by rw [(List.cons.inj heq).1])
    · cases h

theorem cutColon_plain {before : Char} (ht : plainRest before t = true)
    (hrest : followed cs = false) : cutColon (t ++ ':' :: cs) = some (t, cs) := by
  induction t generalizing before with
  | nil => simp [cutColon, hrest]
  | cons c t ih =>
    simp only [plainRest, Bool.and_eq_true, Bool.or_eq_true, decide_eq_true_eq] at ht
    obtain ⟨⟨⟨-, hcolon⟩, -⟩, hplain⟩ := ht
    rw [List.cons_append, cutColon, ih hplain]
    by_cases hc : c = ':'
    · have hnext := followed_append (':' :: cs) (hcolon.resolve_left (by simpa using hc))
      simp [hnext]
    · simp [hc]

theorem key_of_scalar (h : scalar P t = some v) (hrest : followed cs = false) :
    cutKey (t ++ ':' :: cs) = some (t, cs) := by
  unfold scalar at h
  split at h
  · rename_i rest
    split at h
    · rename_i s hquoted
      have hcolon : cutColon (':' :: cs) = some ([], cs) := by simp [cutColon, hrest]
      rw [List.cons_append, cutKey, quotedRest_append _ hquoted, List.nil_append]
      dsimp only
      rw [hcolon]
      simp
    · cases h
  · rename_i hquote
    split at h
    · rename_i hplain
      obtain ⟨c, t, rfl, -, -, hind, hplainRest⟩ :=
        isPlain_cons (Bool.and_eq_true_iff.mp hplain).1
      rw [List.cons_append, cutKey]
      · rw [cutColon, cutColon_plain hplainRest hrest]
        by_cases hc : c = ':'
        · subst hc
          have hnext := followed_append (':' :: cs) (hind.resolve_left (by decide))
          simp [hnext]
        · simp [hc]
      · exact fun rest heq => hquote _ (by rw [(List.cons.inj heq).1])
    · cases h

theorem flow_of_scalar (h : scalar P t = some v) (hstrip : strip cs = t) :
    flow P cs = some v := by
  have hmap : t ≠ ['\x7b', '\x7d'] := by
    rintro rfl
    cases h
  have hlist : t ≠ ['[', ']'] := by
    rintro rfl
    cases h
  rw [flow, hstrip, if_neg hmap, if_neg hlist, h]

/-- **A scalar** on a line of its own. -/
theorem reads_scalar {i : Nat} (h : scalar P t = some v) (hstrip : strip t = t) :
    Reads P [⟨i, t⟩] v := by
  intro fuel hfuel
  have hdash := isDash_of_scalar h []
  have hcut : cutKey (t ++ []) = none := cutKey_of_scalar h (by simp)
  rw [List.append_nil] at hdash hcut
  cases fuel with
  | zero =>
    cases t with
    | nil => cases h
    | cons c cs => simp at hfuel
  | succ fuel => simp [node, hdash, hcut, flow_of_scalar h hstrip]

theorem reads_emptyList {i : Nat} : Reads P [⟨i, ['[', ']']⟩] (.list []) := by
  intro fuel hfuel
  cases fuel with
  | zero => simp at hfuel
  | succ fuel => rfl

end

/-! ## Lines of a text -/

section
variable {cs : List Char}

theorem linesOf_nil : linesOf [] = [] := rfl

theorem linesOf_append (a b : List Char) : linesOf (a ++ '\n' :: b) = linesOf a ++ linesOf b := by
  rw [linesOf, List.splitOn_append_cons_self, List.filterMap_append]
  rfl

theorem linesOf_line (h : '\n' ∉ cs) : linesOf cs = (lineOf cs).toList := by
  rw [linesOf, List.splitOn_eq_singleton h]
  cases hline : lineOf cs <;> simp [hline]

theorem dropWhile_replicate (n : Nat) (cs : List Char) :
    (List.replicate n ' ' ++ cs).dropWhile (· == ' ') = cs.dropWhile (· == ' ') := by
  induction n with
  | zero => rfl
  | succ n ih =>
    rw [List.replicate_succ, List.cons_append, List.dropWhile_cons_of_pos rfl, ih]

theorem lineOf_indent (n : Nat) (hhead : cs.dropWhile (· == ' ') = cs)
    (hblank : cs.all isBlank = false) : lineOf (List.replicate n ' ' ++ cs) = some ⟨n, cs⟩ := by
  rw [lineOf, dropWhile_replicate, hhead, if_neg (by simp [hblank])]
  simp

theorem size_lineOf (cs : List Char) : size (lineOf cs).toList ≤ cs.length := by
  have hdrop := List.length_dropWhile_le (· == ' ') cs
  unfold lineOf
  dsimp only
  split
  · exact Nat.zero_le _
  · simpa [size] using hdrop

theorem size_linesOf (cs : List Char) : size (linesOf cs) ≤ cs.length := by
  have hpieces : ∀ pieces : List (List Char),
      size (pieces.filterMap lineOf) ≤ (['\n'].intercalate pieces).length := by
    intro pieces
    induction pieces with
    | nil => exact Nat.le_refl _
    | cons piece pieces ih =>
      have hline := size_lineOf piece
      have hsize : size ((piece :: pieces).filterMap lineOf) =
          size (lineOf piece).toList + size (pieces.filterMap lineOf) := by
        rw [← size_append]
        cases hpiece : lineOf piece <;> simp [hpiece]
      cases pieces with
      | nil => simpa [hsize] using hline
      | cons piece' pieces =>
        rw [hsize, List.intercalate_cons_cons]
        simp only [List.length_append]
        omega
  calc size (linesOf cs) ≤ (['\n'].intercalate (cs.splitOn '\n')).length := hpieces _
    _ = cs.length := by rw [List.intercalate_splitOn]

end

/-- **A document** whose lines are read as the value, with no marker among them. -/
theorem read_of_reads {P : Profile} {text : String} {v : Value}
    (hmarker : (linesOf text.toList).any isMarker = false) (h : Reads P (linesOf text.toList) v) :
    read P text = some v := by
  have hfuel : size (linesOf text.toList) ≤ text.length := by
    rw [← String.length_toList]
    exact size_linesOf text.toList
  rw [read, if_neg (by simp [hmarker]), h _ hfuel]

end Reader
end Yaml
end Esr
