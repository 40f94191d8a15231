import Esr.CliSubmit
import Esr.YamlInversion

/-! # No other submission is read back

What is read of the file has the keys that were submitted only if each of them was read
from its own line: a key costs no more than the text it stands in (`cost`), and as much
only where the text is bare.  The characters that begin and escape a quoted key cost more
than any that they stand for.
-/
namespace Esr
namespace Cli
open Yaml Yaml.Reader
open Yaml.Writer (Conforms IsScalar isCoreText quotedRest_none)

/-! ## Costs -/

/-- A character by itself, but what quotes and escapes counts for three. -/
def mark (c : Char) : Nat := if c = '"' ∨ c = '\\' then 3 else 1

/-- The cost of a text. -/
def cost (cs : List Char) : Nat := (cs.map mark).sum

@[simp] theorem cost_nil : cost [] = 0 := rfl

@[simp] theorem cost_cons (c : Char) (cs : List Char) : cost (c :: cs) = mark c + cost cs := by
  simp [cost]

@[simp] theorem cost_append (cs cs' : List Char) : cost (cs ++ cs') = cost cs + cost cs' := by
  simp [cost]

theorem mark_bounds (c : Char) : 1 ≤ mark c ∧ mark c ≤ 3 := by
  unfold mark
  split <;> decide

theorem length_le_cost (cs : List Char) : cs.length ≤ cost cs := by
  induction cs with
  | nil => exact Nat.le_refl _
  | cons c cs ih =>
    have hmark := mark_bounds c
    rw [cost_cons, List.length_cons]
    omega

theorem cost_infix {cs cs' : List Char} (h : cs <:+: cs') : cost cs ≤ cost cs' := by
  obtain ⟨a, b, rfl⟩ := h
  simp only [cost_append]
  omega

theorem eq_of_cost {cs cs' : List Char} (h : cs <:+: cs') (hcost : cost cs' ≤ cost cs) :
    cs = cs' := by
  obtain ⟨a, b, rfl⟩ := h
  simp only [cost_append] at hcost
  have ha := length_le_cost a
  have hb := length_le_cost b
  have hnil : a = [] ∧ b = [] := by
    constructor <;> exact List.eq_nil_of_length_eq_zero (by omega)
  simp [hnil]

theorem cost_quoted {cs w r : List Char} (h : Quoted cs w r) : cost w + 3 + cost r ≤ cost cs := by
  induction h with
  | close r => simp [mark]
  | @long a b c d x cs w r hx h ih =>
    have hbounds := mark_bounds x
    have hescape : mark '\\' = 3 := rfl
    simp only [cost_cons, hescape]
    omega
  | @short e c cs w r hlong hc h ih =>
    have hbounds := mark_bounds c
    have he := mark_bounds e
    have hescape : mark '\\' = 3 := rfl
    simp only [cost_cons, hescape]
    omega
  | other hquote hescape hjson h ih =>
    simp only [cost_cons]
    omega

/-! ## Keys -/

theorem unicode_colon {a b c d x : Char} (h : unicode a b c d = some x) :
    a ≠ ':' ∧ b ≠ ':' ∧ c ≠ ':' ∧ d ≠ ':' := by
  obtain ⟨na, ha, h⟩ := Option.bind_eq_some_iff.mp h
  obtain ⟨nb, hb, h⟩ := Option.bind_eq_some_iff.mp h
  obtain ⟨nc, hc, h⟩ := Option.bind_eq_some_iff.mp h
  obtain ⟨nd, hd, -⟩ := Option.bind_eq_some_iff.mp h
  refine ⟨?_, ?_, ?_, ?_⟩
  · rintro rfl; cases ha
  · rintro rfl; cases hb
  · rintro rfl; cases hc
  · rintro rfl; cases hd

/-- Where a quote is closed in a text with a colon: before the colon, or the text before it
stands for some of what is read. -/
theorem quoted_colon {x t w r : List Char} (h : Quoted (x ++ ':' :: t) w r) :
    (∃ a b, x = a ++ '"' :: b ∧ r = b ++ ':' :: t ∧ Quoted (a ++ ['"']) w []) ∨
      ∃ u w', w = u ++ ':' :: w' ∧ Quoted (x ++ ['"']) u [] ∧ Quoted t w' r := by
  generalize hcs : x ++ ':' :: t = cs at h
  induction h generalizing x with
  | close r =>
    rcases x with _ | ⟨c, x⟩
    · exact absurd (List.cons.inj hcs).1 (by decide)
    · obtain ⟨rfl, rfl⟩ := List.cons.inj hcs
      exact .inl ⟨[], x, rfl, rfl, .close []⟩
  | @long a b c d e cs w r he h ih =>
    obtain ⟨ha, hb, hc, hd⟩ := unicode_colon he
    rcases x with _ | ⟨_, _ | ⟨_, _ | ⟨_, _ | ⟨_, _ | ⟨_, _ | ⟨_, x⟩⟩⟩⟩⟩⟩ <;>
      simp only [List.nil_append, List.cons_append, List.cons.injEq] at hcs
    · exact absurd hcs.1 (by decide)
    · exact absurd hcs.2.1 (by decide)
    · exact absurd hcs.2.2.1.symm ha
    · exact absurd hcs.2.2.2.1.symm hb
    · exact absurd hcs.2.2.2.2.1.symm hc
    · exact absurd hcs.2.2.2.2.2.1.symm hd
    · obtain ⟨rfl, rfl, rfl, rfl, rfl, rfl, htail⟩ := hcs
      rcases ih htail with ⟨a, b, rfl, rfl, hclosed⟩ | ⟨u, w', rfl, hopen, hrest⟩
      · exact .inl ⟨_ :: _ :: _ :: _ :: _ :: _ :: a, b, rfl, rfl, .long he hclosed⟩
      · exact .inr ⟨e :: u, w', rfl, .long he hopen, hrest⟩
  | @short e c cs w r hlong hc h ih =>
    rcases x with _ | ⟨_, _ | ⟨_, x⟩⟩ <;>
      simp only [List.nil_append, List.cons_append, List.cons.injEq] at hcs
    · exact absurd hcs.1 (by decide)
    · obtain ⟨-, rfl, -⟩ := hcs
      cases hc
    · obtain ⟨rfl, rfl, htail⟩ := hcs
      rcases ih htail with ⟨a, b, rfl, rfl, hclosed⟩ | ⟨u, w', rfl, hopen, hrest⟩
      · exact .inl ⟨_ :: _ :: a, b, rfl, rfl, .short hlong hc hclosed⟩
      · exact .inr ⟨c :: u, w', rfl, .short hlong hc hopen, hrest⟩
  | @other c cs w r hquote hescape hjson h ih =>
    rcases x with _ | ⟨c', x⟩
    · obtain ⟨rfl, rfl⟩ := List.cons.inj hcs
      exact .inr ⟨[], w, rfl, .close [], h⟩
    · obtain ⟨rfl, htail⟩ := List.cons.inj hcs
      rcases ih htail with ⟨a, b, rfl, rfl, hclosed⟩ | ⟨u, w', rfl, hopen, hrest⟩
      · exact .inl ⟨_ :: a, b, rfl, rfl, .other hquote hescape hjson hclosed⟩
      · exact .inr ⟨_ :: u, w', rfl, .other hquote hescape hjson hopen, hrest⟩

theorem cost_quoted_value {x w r : List Char} {v : String}
    (h : Quoted (x ++ ':' :: ' ' :: (Inspect.inspect v).toList) w r) : cost w ≤ cost x + 2 := by
  have hquote : mark '"' = 3 := rfl
  rcases quoted_colon h with ⟨a, b, rfl, -, hclosed⟩ | ⟨u, w', rfl, hopen, hrest⟩
  · have hcost := cost_quoted hclosed
    simp only [cost_append, cost_cons, cost_nil, hquote] at hcost ⊢
    omega
  · have hcost := cost_quoted hopen
    have hread := quotedRest_iff.mpr hrest
    rw [quotedRest_other (by decide) (by decide), if_pos (by decide)] at hread
    obtain ⟨w', rfl, hvalue⟩ := map_cons_eq_some.mp hread
    rcases Inspect.inspect_quote v with ⟨cs, htext⟩ | hnone
    · rw [htext] at hvalue
      obtain ⟨rfl, -⟩ := Prod.mk.inj (Option.some.inj hvalue)
      have hcolon : mark ':' = 1 := rfl
      have hblank : mark ' ' = 1 := rfl
      simp only [cost_append, cost_cons, cost_nil, hquote, hcolon, hblank] at hcost ⊢
      omega
    · rw [quotedRest_none hnone] at hvalue
      cases hvalue

theorem quoted_split {cs w r : List Char} (h : Quoted cs w r) :
    ∃ a, cs = a ++ '"' :: r ∧ Quoted (a ++ ['"']) w [] := by
  induction h with
  | close r => exact ⟨[], rfl, .close []⟩
  | @long a b c d x cs w r hx h ih =>
    obtain ⟨a', rfl, hquoted⟩ := ih
    exact ⟨'\\' :: 'u' :: a :: b :: c :: d :: a', rfl, .long hx hquoted⟩
  | @short e c cs w r hlong hc h ih =>
    obtain ⟨a', rfl, hquoted⟩ := ih
    exact ⟨'\\' :: e :: a', rfl, .short hlong hc hquoted⟩
  | @other c cs w r hquote hescape hjson h ih =>
    obtain ⟨a', rfl, hquoted⟩ := ih
    exact ⟨c :: a', rfl, .other hquote hescape hjson hquoted⟩

theorem cutColon_cases {x t key rest : List Char} (ht : followed t = false)
    (h : cutColon (x ++ ':' :: t) = some (key, rest)) :
    key = x ∧ rest = t ∨ ∃ x', x = key ++ ':' :: x' ∧ rest = x' ++ ':' :: t := by
  induction x generalizing key with
  | nil =>
    have hcolon : cutColon (':' :: t) = some ([], t) := by simp [cutColon, ht]
    rw [List.nil_append, hcolon] at h
    obtain ⟨rfl, rfl⟩ := Prod.mk.inj (Option.some.inj h)
    exact .inl ⟨rfl, rfl⟩
  | cons c x ih =>
    rcases cutColon_cons h with ⟨rfl, -, rfl, rfl⟩ | ⟨key, rfl, hkey⟩
    · exact .inr ⟨x, rfl, rfl⟩
    · rcases ih hkey with ⟨rfl, hrest⟩ | ⟨x', rfl, hrest⟩
      · exact .inl ⟨rfl, hrest⟩
      · exact .inr ⟨x', rfl, hrest⟩

section
variable {P : Profile} {s : String}

theorem cost_flow {cs : List Char} (h : flow P cs = some (.str s)) :
    cost s.toList ≤ cost (strip cs) ∧
      (cost (strip cs) = cost s.toList → s.toList = strip cs ∧ isPlain s.toList = true ∧
        isCoreText s = true) := by
  rcases Inspect.text_of_flow h with ⟨rest, hstrip, hquoted⟩ | ⟨htext, hplain, hcore⟩
  · have hcost := cost_quoted (quotedRest_iff.mp hquoted)
    have hquote : mark '"' = 3 := rfl
    rw [hstrip, cost_cons, hquote]
    exact ⟨by omega, by omega⟩
  · rw [← htext]
    exact ⟨Nat.le_refl _, fun _ => ⟨rfl, hplain, hcore⟩⟩

/-- The key of a line: a text between quotes, or the plain text before a colon. -/
inductive KeyOf (cs : List Char) (key rest : List Char) (k : String) : Prop
  | quoted (cs' r : List Char) (hcs : cs = '"' :: cs') (h : Quoted cs' k.toList r)
  | plain (hhead : ∀ cs', cs ≠ '"' :: cs') (hcut : cutColon cs = some (key, rest))
      (htext : k.toList = key.rdropWhile isBlank) (hplain : isPlain k.toList = true)
      (hcore : isCoreText k = true) (hlength : key.length ≤ 1024)

theorem keyOf_cases {cs key rest : List Char} {k : String} (hcut : cutKey cs = some (key, rest))
    (hkey : keyOf P key = some (.str k)) : KeyOf cs key rest k := by
  unfold cutKey at hcut
  split at hcut
  · rename_i rest'
    split at hcut
    · rename_i w after hread
      split at hcut
      · split at hcut
        · obtain ⟨rfl, -⟩ := Prod.mk.inj (Option.some.inj hcut)
          obtain ⟨a, rfl, hquoted⟩ := quoted_split (quotedRest_iff.mp hread)
          have htake : ('"' :: (a ++ '"' :: after)).take
              ((a ++ '"' :: after).length - after.length + 1) = '"' :: (a ++ ['"']) := by
            have hlength : (a ++ '"' :: after).length - after.length = (a ++ ['"']).length := by
              simp only [List.length_append, List.length_cons, List.length_nil]
              omega
            rw [List.take_succ_cons, hlength, List.append_cons a '"' after, List.take_left]
          have hlast : ('"' :: (a ++ ['"'])).rdropWhile isBlank = '"' :: (a ++ ['"']) := by
            rw [← List.cons_append, List.rdropWhile_concat_neg _ _ _ (by decide)]
          rw [htake, keyOf, hlast, scalar, quotedRest_of_quoted hquoted] at hkey
          split at hkey
          · cases hkey
            exact .quoted _ _ rfl (by rwa [String.toList_ofList, ← quotedRest_iff])
          · cases hkey
        · cases hcut
      · cases hcut
    · cases hcut
  · rename_i hhead
    unfold keyOf at hkey
    split at hkey
    · rename_i hlength
      rcases Inspect.text_of_scalar hkey with ⟨rest', hquote, -⟩ | ⟨htext, hplain, hcore⟩
      · obtain ⟨blanks, hkey'⟩ := List.rdropWhile_prefix isBlank key
        rw [hquote] at hkey'
        refine absurd ?_ (hhead (rest' ++ blanks ++ ':' :: rest))
        rw [eq_of_cutColon hcut, ← hkey']
        simp
      · exact .plain hhead hcut htext hplain hcore hlength
    · cases hkey

theorem isBare_of_plain (hplain : isPlain s.toList = true)
    (hlast : s.toList.rdropWhile isBlank = s.toList) (hcore : isCoreText s = true) :
    isBare s = true := by
  have hhead : s.toList.dropWhile (· == ' ') = s.toList := by
    obtain ⟨c, cs, htext, -, hblank, -, -⟩ := isPlain_cons hplain
    rw [htext]
    refine List.dropWhile_cons_of_neg ?_
    intro hc
    rw [eq_of_beq hc] at hblank
    cases hblank
  rw [isBare, hplain, hcore, strip, hhead, hlast]
  simp

/-- What the key of a line costs, and one for the line. -/
def keyCost (P : Profile) (cs : List Char) : Nat :=
  match cutKey cs with
  | some (key, _) =>
      match keyOf P key with
      | some (.str k) => 1 + cost k.toList
      | _ => 0
  | none => 0

theorem keyCost_cases (cs : List Char) : keyCost P cs = 0 ∨
    ∃ key rest k, cutKey cs = some (key, rest) ∧ keyOf P key = some (.str k) ∧
      keyCost P cs = 1 + cost k.toList := by
  cases hcut : cutKey cs with
  | none => exact .inl (by rw [keyCost, hcut])
  | some p =>
    cases hkey : keyOf P p.1 with
    | none => exact .inl (by simp [keyCost, hcut, hkey])
    | some v =>
      cases v with
      | str k => exact .inr ⟨p.1, p.2, k, rfl, hkey, by simp [keyCost, hcut, hkey]⟩
      | _ => exact .inl (by simp [keyCost, hcut, hkey])

theorem keyCost_line (cs : List Char) : keyCost P cs ≤ cost cs := by
  rcases keyCost_cases (P := P) cs with hzero | ⟨key, rest, k, hcut, hkey, heq⟩
  · omega
  · rw [heq]
    cases keyOf_cases hcut hkey with
    | quoted cs' r hcs h =>
      have hcost := cost_quoted h
      have hquote : mark '"' = 3 := rfl
      rw [hcs, cost_cons, hquote]
      omega
    | plain hhead hcut htext hplain hcore hlength =>
      have hcost := cost_infix (List.rdropWhile_prefix isBlank key).isInfix
      have hcolon : mark ':' = 1 := rfl
      rw [eq_of_cutColon hcut, cost_append, cost_cons, hcolon, htext]
      omega

/-- The key of an argument costs no more than the text that stands for it, and as much only
if the text is bare. -/
theorem keyCost_arg (x : List Char) (v : String) :
    keyCost P (x ++ ':' :: ' ' :: (Inspect.inspect v).toList) ≤ 1 + cost x ∧
      (keyCost P (x ++ ':' :: ' ' :: (Inspect.inspect v).toList) = 1 + cost x →
        isBare (String.ofList x) = true ∧ x.length ≤ 1024) := by
  rcases keyCost_cases (P := P) (x ++ ':' :: ' ' :: (Inspect.inspect v).toList) with
    hzero | ⟨key, rest, k, hcut, hkey, heq⟩
  · omega
  · rw [heq]
    cases keyOf_cases hcut hkey with
    | quoted cs' r hcs h =>
      cases x with
      | nil => cases hcs
      | cons c x =>
        rw [List.cons_append] at hcs
        obtain ⟨rfl, rfl⟩ := List.cons.inj hcs
        have hcost := cost_quoted_value h
        have hquote : mark '"' = 3 := rfl
        rw [cost_cons, hquote]
        exact ⟨by omega, by omega⟩
    | plain hhead hcut htext hplain hcore hlength =>
      have hstrip := (List.rdropWhile_prefix isBlank key).isInfix
      have hcost := cost_infix hstrip
      rw [htext]
      rcases cutColon_cases rfl hcut with ⟨rfl, -⟩ | ⟨x', rfl, -⟩
      · refine ⟨by omega, fun hsame => ⟨?_, hlength⟩⟩
        rw [eq_of_cost hstrip (by omega)] at htext
        have hk : k = String.ofList key := by rw [← htext, String.ofList_toList]
        rw [← hk]
        refine isBare_of_plain hplain ?_ hcore
        rw [htext]
        exact eq_of_cost hstrip (by omega)
      · have hcolon : mark ':' = 1 := rfl
        rw [cost_append, cost_cons, hcolon]
        exact ⟨by omega, by omega⟩

/-! ## Lines -/

/-- What the keys of the lines cost. -/
def keyCosts (P : Profile) (ls : List Line) : Nat := (ls.map fun l => keyCost P l.text).sum

@[simp] theorem keyCosts_nil : keyCosts P [] = 0 := rfl

@[simp] theorem keyCosts_cons (l : Line) (ls : List Line) :
    keyCosts P (l :: ls) = keyCost P l.text + keyCosts P ls := by
  simp [keyCosts]

@[simp] theorem keyCosts_append (ls ls' : List Line) :
    keyCosts P (ls ++ ls') = keyCosts P ls + keyCosts P ls' := by
  simp [keyCosts]

theorem keyCosts_line (n : Nat) {a : List Char} (hline : '\n' ∉ a) :
    keyCosts P (linesOf (List.replicate n ' ' ++ a)) ≤ cost a := by
  have hspaces : '\n' ∉ List.replicate n ' ' := fun hc =>
    absurd (List.eq_of_mem_replicate hc) (by decide)
  rw [linesOf_line (by simp [hspaces, hline]), lineOf, dropWhile_replicate]
  split
  · exact Nat.zero_le _
  · have hcost := cost_infix (List.dropWhile_suffix (l := a) (· == ' ')).isInfix
    have hkey := keyCost_line (P := P) (a.dropWhile (· == ' '))
    rw [Option.toList_some, keyCosts_cons, keyCosts_nil]
    dsimp only
    omega

theorem keyCosts_arg (n : Nat) (k : List Char) (v : String) :
    keyCosts P (linesOf (List.replicate n ' ' ++ (k ++ ':' :: ' ' :: (Inspect.inspect v).toList))) ≤
        1 + cost k ∧
      (keyCosts P (linesOf (List.replicate n ' ' ++ (k ++ ':' :: ' ' :: (Inspect.inspect v).toList))) =
        1 + cost k → isBare (String.ofList k) = true ∧ k.length ≤ 1024) := by
  induction hlength : k.length using Nat.strong_induction_on generalizing n k with
  | _ m ih =>
    subst hlength
    by_cases hnewline : '\n' ∈ k
    · obtain ⟨a, b, rfl, ha⟩ := List.eq_append_cons_of_mem hnewline
      have hfirst := keyCosts_line (P := P) n ha
      obtain ⟨hrest, -⟩ := ih b.length (by simp; omega) 0 b rfl
      have hsplit : List.replicate n ' ' ++ (a ++ '\n' :: b ++ ':' :: ' ' :: (Inspect.inspect v).toList) =
          (List.replicate n ' ' ++ a) ++ '\n' :: (b ++ ':' :: ' ' :: (Inspect.inspect v).toList) := by
        simp
      have hnine : mark '\n' = 1 := rfl
      rw [List.replicate_zero, List.nil_append] at hrest
      rw [hsplit, linesOf_append, keyCosts_append, cost_append, cost_cons, hnine]
      exact ⟨by omega, by omega⟩
    · have hline : '\n' ∉ List.replicate n ' ' ++ (k ++ ':' :: ' ' :: (Inspect.inspect v).toList) := by
        simp [hnewline, Inspect.inspect_line]
      have hdrop : (k ++ ':' :: ' ' :: (Inspect.inspect v).toList).dropWhile (· == ' ') =
          k.dropWhile (· == ' ') ++ ':' :: ' ' :: (Inspect.inspect v).toList := by
        rw [List.dropWhile_append]
        split
        · rename_i hnone
          rw [List.isEmpty_iff.mp hnone]
          rfl
        · rfl
      have hvisible : (k.dropWhile (· == ' ') ++ ':' :: ' ' :: (Inspect.inspect v).toList).all isBlank =
          false := by simp [isBlank]
      have hsuffix := (List.dropWhile_suffix (l := k) (· == ' ')).isInfix
      have hcost := cost_infix hsuffix
      obtain ⟨hle, heq⟩ := keyCost_arg (P := P) (k.dropWhile (· == ' ')) v
      rw [linesOf_line hline, lineOf, dropWhile_replicate, hdrop, if_neg (by simp [hvisible]),
        Option.toList_some, keyCosts_cons, keyCosts_nil]
      dsimp only
      refine ⟨by omega, fun hsame => ?_⟩
      rw [eq_of_cost hsuffix (by omega)] at heq hsame
      exact heq hsame

/-! ## The arguments -/

/-- What the keys of arguments cost together. -/
def pairCosts (pairs : List (String × String)) : Nat :=
  (pairs.map fun p => 1 + cost p.1.toList).sum

/-- The keys of the lines cost no more than the keys of the arguments, and as much only if
all of these are bare. -/
theorem keyCosts_args (pairs : List (String × String)) :
    keyCosts P (pairs.flatMap argLines) ≤ pairCosts pairs ∧
      (keyCosts P (pairs.flatMap argLines) = pairCosts pairs →
        ∀ p ∈ pairs, isBare p.1 = true ∧ p.1.length ≤ 1024) := by
  induction pairs with
  | nil => simp [pairCosts]
  | cons p pairs ih =>
    obtain ⟨hle, heq⟩ := keyCosts_arg (P := P) 2 p.1.toList p.2
    obtain ⟨hles, heqs⟩ := ih
    have hsplit : pairCosts (p :: pairs) = 1 + cost p.1.toList + pairCosts pairs := by
      simp [pairCosts]
    rw [String.ofList_toList, String.length_toList] at heq
    rw [List.flatMap_cons, keyCosts_append, hsplit]
    have hlines : argLines p = linesOf (List.replicate 2 ' ' ++
      (p.1.toList ++ ':' :: ' ' :: (Inspect.inspect p.2).toList)) := rfl
    rw [hlines]
    refine ⟨by omega, fun hsame => ?_⟩
    exact List.forall_mem_cons.mpr ⟨heq (by omega), heqs (by omega)⟩

/-- What the keys of entries cost. -/
def entryCosts (es : Entries) : Nat :=
  (es.map fun e => match e.1 with
    | .str k => 1 + cost k.toList
    | _ => 0).sum

theorem entryCosts_pairs (pairs : List (String × String)) :
    entryCosts (pairs.map fun p => (.str p.1, .str p.2)) = pairCosts pairs := by
  simp [entryCosts, pairCosts, Function.comp_def]

theorem entryCosts_le {block : List Line → Option Value} {gs : List Group} {rs : Entries}
    (h : List.Forall₂ (IsRead P block) gs rs) : entryCosts rs ≤ keyCosts P (ungroup gs) := by
  induction h with
  | nil => exact Nat.le_refl _
  | @cons g e gs rs hread _ ih =>
    have hfirst : (match e.1 with
        | .str k => 1 + cost k.toList
        | _ => 0) ≤ keyCost P g.1.text := by
      obtain ⟨key, rest, hcut, hkey⟩ := hread.key
      rw [keyCost, hcut]
      dsimp only
      rw [hkey]
      split <;> simp_all
    have hsplit : ungroup (g :: gs) = g.1 :: (g.2 ++ ungroup gs) := rfl
    rw [hsplit, keyCosts_cons, keyCosts_append, entryCosts, List.map_cons, List.sum_cons]
    rw [entryCosts] at ih
    omega

theorem eq_of_key {pairs : List (String × String)} (h : pairs.Pairwise fun e e' => e.1 < e'.1)
    {p p' : String × String} (hp : p ∈ pairs) (hp' : p' ∈ pairs) (hkey : p.1 = p'.1) : p = p' := by
  have hnodup : (pairs.map Prod.fst).Nodup :=
    List.pairwise_map.mpr (h.imp fun hlt => String.ne_of_lt hlt)
  exact List.inj_on_of_nodup_map hnodup hp hp' hkey

/-- **What was read of the arguments**: every key is bare, and every value is read back. -/
theorem safe_args (hplain : ∀ c, P.plain c = true) {args : Args} {pairs : List (String × String)}
    {fuel : Nat} {below : List Line} (hne : pairs ≠ []) (hperm : pairs.Perm args.pairs)
    (hbelow : below <+: pairs.flatMap argLines)
    (h : node P fuel below = some (.map (args.pairs.map fun p => (.str p.1, .str p.2)))) :
    ∀ p ∈ args.pairs, (isBare p.1 = true ∧ p.1.length ≤ 1024) ∧ Inspect.isReadBack p.2 = true := by
  have hnil : args.pairs.map (fun p => (Value.str p.1, Value.str p.2)) ≠ [] := by
    rw [ne_eq, List.map_eq_nil_iff]
    rintro hnone
    rw [hnone] at hperm
    exact hne hperm.eq_nil
  obtain ⟨fuel', l, ls, gs, rs, -, hgroups, hrs, hentries⟩ := node_map hnil h
  have hlines := lines_of_groups hgroups
  rw [List.nil_append] at hlines
  -- every line is paid for by the key it was written for, so none is left over
  obtain ⟨hle, heq⟩ := keyCosts_args (P := P) pairs
  have hcosts : pairCosts pairs ≤ keyCosts P (pairs.flatMap argLines) := by
    obtain ⟨more, hmore⟩ := hbelow
    calc pairCosts pairs = pairCosts args.pairs := (hperm.map _).sum_nat
      _ = entryCosts rs := by rw [← entryCosts_pairs]; exact (hentries.map _).sum_nat
      _ ≤ keyCosts P below := hlines ▸ entryCosts_le hrs
      _ ≤ keyCosts P (pairs.flatMap argLines) := by rw [← hmore, keyCosts_append]; omega
  have hkeys := heq (Nat.le_antisymm hle hcosts)
  intro p hp
  refine ⟨hkeys p (hperm.mem_iff.mpr hp), ?_⟩
  have hmem : (Value.str p.1, Value.str p.2) ∈ rs :=
    hentries.mem_iff.mp (List.mem_map.mpr ⟨p, hp, rfl⟩)
  obtain ⟨g, hg, hread⟩ := group_of_entry hrs hmem
  have hline : g.1 ∈ pairs.flatMap argLines := by
    refine hbelow.subset ?_
    rw [hlines]
    exact List.mem_flatMap.mpr ⟨g, hg, List.mem_cons_self⟩
  obtain ⟨p', hp', hline⟩ := List.mem_flatMap.mp hline
  rw [argLines_bare hplain (hkeys p' hp').1, List.mem_singleton] at hline
  have hscalar := isScalar_bare hplain (hkeys p' hp').1
  have hcut : cutKey g.1.text = some (p'.1.toList, ' ' :: (Inspect.inspect p'.2).toList) := by
    rw [hline]
    exact key_of_scalar hscalar.scalar rfl
  have hkey : keyOf P p'.1.toList = some (.str p'.1) := keyOf_scalar hscalar (hkeys p' hp').2
  cases hread with
  | below key rest hcut' hkey' hblank =>
    rw [hcut] at hcut'
    cases hcut'
    rw [Inspect.strip_inspect] at hblank
    exact absurd hblank (Inspect.inspect_ne p'.2)
  | behind key rest hcut' hkey' hblank hnone hflow =>
    rw [hcut] at hcut'
    cases hcut'
    rw [hkey] at hkey'
    obtain rfl := eq_of_key args.sorted hp (hperm.mem_iff.mp hp')
      (Value.str.inj (Option.some.inj hkey')).symm
    exact Inspect.flow_inspect.mp hflow

/-! ## The words -/

theorem cost_linesOf {cs : List Char} {l : Line} (h : l ∈ linesOf cs) : cost l.text ≤ cost cs := by
  induction hlength : cs.length using Nat.strong_induction_on generalizing cs with
  | _ m ih =>
    subst hlength
    by_cases hnewline : '\n' ∈ cs
    · obtain ⟨a, b, rfl, -⟩ := List.eq_append_cons_of_mem hnewline
      rw [linesOf_append] at h
      rw [cost_append, cost_cons]
      rcases List.mem_append.mp h with h | h
      · have hcost := ih a.length (by simp) h rfl
        omega
      · have hcost := ih b.length (by simp; omega) h rfl
        omega
    · rw [linesOf_line hnewline, lineOf] at h
      split at h
      · cases h
      · obtain rfl := List.mem_singleton.mp h
        exact cost_infix (List.dropWhile_suffix (l := cs) (· == ' ')).isInfix

theorem linesOf_wordText {name : String} (hname : IsScalar P name.toList (.str name)) (s : String) :
    ∃ a rest, linesOf (wordText name s) = ⟨0, name.toList ++ ':' :: ' ' :: a⟩ :: rest ∧
      (s.toList = a ∧ rest = [] ∨ ∃ b, s.toList = a ++ '\n' :: b ∧ rest = linesOf b) := by
  by_cases hnewline : '\n' ∈ s.toList
  · obtain ⟨a, b, hs, ha⟩ := List.eq_append_cons_of_mem hnewline
    refine ⟨a, linesOf b, ?_, .inr ⟨b, hs, rfl⟩⟩
    have hsplit : wordText name s = (name.toList ++ ':' :: ' ' :: a) ++ '\n' :: b := by
      simp [wordText, hs]
    have hfirst := linesOf_entry 0 hname ha
    rw [List.replicate_zero, List.nil_append] at hfirst
    rw [hsplit, linesOf_append, hfirst]
    rfl
  · exact ⟨s.toList, [], linesOf_entry 0 hname hnewline, .inl ⟨rfl, rfl⟩⟩

theorem strip_part (cs : List Char) : strip cs <:+: cs :=
  (List.rdropWhile_prefix isBlank _).isInfix.trans (List.dropWhile_suffix _).isInfix

/-- **What was read of a word**: it stands behind its name, as it is. -/
theorem safe_word {fuel : Nat} {a : List Char} {rest below : List Line}
    (hs : s.toList = a ∧ rest = [] ∨ ∃ b, s.toList = a ++ '\n' :: b ∧ rest = linesOf b)
    (hbelow : below <+: rest)
    (h : strip (' ' :: a) = [] ∧ node P fuel below = some (.str s) ∨
      flow P (' ' :: a) = some (.str s)) : isBare s = true := by
  rcases h with ⟨-, h⟩ | h
  · -- below the name there is only what comes after a newline
    obtain ⟨l, rfl, hflow⟩ := node_text h
    obtain ⟨hcost, -⟩ := cost_flow hflow
    have hl := hbelow.subset List.mem_cons_self
    have hstrip := cost_infix (strip_part l.text)
    rcases hs with ⟨-, rfl⟩ | ⟨b, hs, rfl⟩
    · cases hl
    · have hline := cost_linesOf hl
      have hnine : mark '\n' = 1 := rfl
      rw [hs, cost_append, cost_cons, hnine] at hcost
      omega
  · obtain ⟨hcost, heq⟩ := cost_flow h
    have hprefix : a <:+: s.toList := by
      rcases hs with ⟨hs, -⟩ | ⟨b, hs, -⟩
      · exact hs ▸ List.infix_rfl
      · rw [hs]
        exact (List.prefix_append a ('\n' :: b)).isInfix
    have hstrip := strip_part a
    have hle := cost_infix hstrip
    have hle' := cost_infix hprefix
    rw [show strip (' ' :: a) = strip a from rfl] at hcost heq
    obtain ⟨htext, hplain, hcore⟩ := heq (by omega)
    have ha : a = s.toList := eq_of_cost hprefix (by omega)
    rw [ha] at htext
    simp [isBare, hplain, hcore, ← htext]

theorem word_of_groups (hplain : ∀ c, P.plain c = true) {name : String} (hname : isBare name = true)
    (hlength : name.length ≤ 1024) {fuel : Nat} {pre post : List Line} {l : Line} (hl : l.indent = 0)
    {gs : List Group} {rs : Entries} (hgroups : groups 0 (pre ++ (linesOf (wordText name s) ++
      l :: post)) = some ([], gs))
    (hrs : List.Forall₂ (IsRead P (node P fuel)) gs rs)
    (hes : ∀ e ∈ rs, e.1 = .str name → e.2 = .str s) : isBare s = true := by
  have hscalar := isScalar_bare hplain hname
  obtain ⟨a, rest, hlines, hs⟩ := linesOf_wordText hscalar s
  rw [hlines] at hgroups
  obtain ⟨below, gs', hrest, hmem⟩ := groups_at hgroups rfl
  have hbelow : below <+: rest := below_of_groups hrest hl
  obtain ⟨e, he, hread⟩ := entry_of_group hrs hmem
  have hcut : cutKey (name.toList ++ ':' :: ' ' :: a) = some (name.toList, ' ' :: a) :=
    key_of_scalar hscalar.scalar rfl
  have hkey : keyOf P name.toList = some (.str name) := keyOf_scalar hscalar hlength
  cases hread with
  | below key rest hcut' hkey' hblank hvalue =>
    obtain ⟨rfl, rfl⟩ := Prod.mk.inj (Option.some.inj (hcut.symm.trans hcut'))
    rw [hes e he (Option.some.inj (hkey'.symm.trans hkey))] at hvalue
    exact safe_word hs hbelow (.inl ⟨hblank, hvalue⟩)
  | behind key rest hcut' hkey' hblank hnone hvalue =>
    obtain ⟨rfl, rfl⟩ := Prod.mk.inj (Option.some.inj (hcut.symm.trans hcut'))
    rw [hes e he (Option.some.inj (hkey'.symm.trans hkey))] at hvalue
    exact @safe_word P s fuel _ _ _ hs hbelow (.inr hvalue)

/-- **What is read back is safe.** -/
theorem safe_of_read (hplain : ∀ c, P.plain c = true) {sub : Submission}
    {pairs : List (String × String)} (hperm : pairs.Perm sub.args.pairs)
    (h : read P (fileText sub pairs) = some (document sub)) : Safe sub := by
  have hnode : ∃ fuel, node P fuel (linesOf (fileText sub pairs).toList) = some (document sub) := by
    unfold Reader.read at h
    dsimp only at h
    split at h
    · cases h
    · exact ⟨_, h⟩
  obtain ⟨fuel, hnode⟩ := hnode
  obtain ⟨fuel', l, ls, gs, rs, hls, hgroups, hrs, hentries⟩ := node_map (by simp) hnode
  have hindent : l.indent = 0 := by
    obtain ⟨a, rest, hlines, -⟩ := linesOf_wordText (isScalar_bare hplain (s := "id") (by decide)) sub.id
    rw [linesOf_file, hlines] at hls
    obtain ⟨rfl, -⟩ := List.cons.inj hls
    rfl
  rw [hindent, linesOf_file] at hgroups
  have hvalue : ∀ e ∈ rs, (e.1 = .str "id" → e.2 = .str sub.id) ∧
      (e.1 = .str "kind" → e.2 = .str sub.kind) ∧
      (e.1 = .str "submitted_by" → e.2 = .str sub.submittedBy) ∧
      (e.1 = .str "args" → e.2 = .map (sub.args.pairs.map fun p => (.str p.1, .str p.2))) := by
    intro e he
    have hmem := hentries.mem_iff.mpr he
    simp only [List.mem_cons, List.not_mem_nil, or_false] at hmem
    rcases hmem with rfl | rfl | rfl | rfl <;> simp
  obtain ⟨a, kindRest, hkind, -⟩ :=
    linesOf_wordText (isScalar_bare hplain (s := "kind") (by decide)) sub.kind
  obtain ⟨b, byRest, hby, -⟩ :=
    linesOf_wordText (isScalar_bare hplain (s := "submitted_by") (by decide)) sub.submittedBy
  have hargs : ∀ p ∈ sub.args.pairs, (isBare p.1 = true ∧ p.1.length ≤ 1024) ∧
      Inspect.isReadBack p.2 = true := by
    by_cases hne : pairs = []
    · rw [hne] at hperm
      simp [List.nil_perm.mp hperm]
    · have hscalar := isScalar_bare hplain (s := "args") (by decide)
      have hsplit := hgroups
      rw [← List.append_assoc, ← List.append_assoc] at hsplit
      obtain ⟨below, gs', hrest, hmem⟩ := groups_at hsplit rfl
      obtain ⟨e, he, hread⟩ := entry_of_group hrs hmem
      have hcut : cutKey "args:".toList = some ("args".toList, []) := rfl
      have hkey := keyOf_scalar hscalar (by decide)
      have hbelow : below <+: pairs.flatMap argLines := by
        have hlines := lines_of_groups hrest
        rw [argsLines, if_neg hne] at hlines
        exact ⟨_, hlines.symm⟩
      cases hread with
      | below key rest hcut' hkey' hblank hnode =>
        obtain ⟨rfl, rfl⟩ := Prod.mk.inj (Option.some.inj (hcut.symm.trans hcut'))
        rw [(hvalue e he).2.2.2 (Option.some.inj (hkey'.symm.trans hkey))] at hnode
        exact safe_args hplain hne hperm hbelow hnode
      | behind key rest hcut' hkey' hblank hnone hflow =>
        obtain ⟨rfl, rfl⟩ := Prod.mk.inj (Option.some.inj (hcut.symm.trans hcut'))
        exact absurd rfl hblank
  refine ⟨?_, ?_, ?_, fun p hp => (hargs p hp).1, fun p hp => (hargs p hp).2⟩
  · rw [hkind] at hgroups
    rw [← List.nil_append (linesOf (wordText "id" sub.id) ++ _)] at hgroups
    exact word_of_groups hplain (by decide) (by decide) rfl hgroups hrs fun e he => (hvalue e he).1
  · rw [hby] at hgroups
    exact word_of_groups hplain (by decide) (by decide) rfl hgroups hrs fun e he => (hvalue e he).2.1
  · rw [← List.append_assoc] at hgroups
    exact word_of_groups hplain (by decide) (by decide) rfl hgroups hrs fun e he =>
      (hvalue e he).2.2.1

end

/-! ## The round trip -/

/-- The map's entries in the order in which the runtime enumerates them. -/
def Enumerates (enum : Args → List (String × String)) : Prop :=
  ∀ args, (enum args).Perm args.pairs

/-- What the command line submits is read back from the file that is written for it. -/
def RoundTrips (enum : Args → List (String × String)) (read : String → Option Value)
    (submitted : Option Submission) : Prop :=
  ∃ sub, submitted = some sub ∧ read (fileText sub (enum sub.args)) = some (document sub)

/-- What is written for the submission is a document of the fragment. -/
def Legible (enum : Args → List (String × String)) (P : Profile) (sub : Submission) : Prop :=
  ∃ v, Reader.read P (fileText sub (enum sub.args)) = some v

/-- **The round trip holds exactly for the safe submissions**: for all readers together, and
for each of them where what is written is in the fragment. -/
theorem submission_roundTrips_iff {enum : Args → List (String × String)} (henum : Enumerates enum)
    (floatText : String → String) {argv : List String} {principal : Option String} {time : Nat}
    {random : BitVec 48} {sub : Submission} (hsub : submissionOf argv principal time random = some sub) :
    ((∀ read, Conforms (standard floatText) read →
        RoundTrips enum read (submissionOf argv principal time random)) ↔ Safe sub) ∧
      ∀ read, Conforms (standard floatText) read → Legible enum (standard floatText) sub →
        (RoundTrips enum read (submissionOf argv principal time random) ↔ Safe sub) := by
  have hplain : ∀ c, (standard floatText).plain c = true := fun _ => rfl
  have hback : Safe sub → ∀ read, Conforms (standard floatText) read →
      RoundTrips enum read (submissionOf argv principal time random) := by
    intro hsafe read hread
    exact ⟨sub, hsub, hread _ _ (read_of_safe hplain hsafe (henum sub.args))⟩
  have hsafe : RoundTrips enum (Reader.read (standard floatText))
      (submissionOf argv principal time random) → Safe sub := by
    rintro ⟨sub', hsub', hread⟩
    rw [hsub] at hsub'
    cases hsub'
    exact safe_of_read hplain (henum sub.args) hread
  refine ⟨⟨fun hall => hsafe (hall _ fun _ _ h => h), hback⟩, ?_⟩
  rintro read hread ⟨v, hv⟩
  refine ⟨?_, fun h => hback h read hread⟩
  rintro ⟨sub', hsub', hsame⟩
  rw [hsub] at hsub'
  cases hsub'
  rw [hread _ _ hv] at hsame
  cases hsame
  exact hsafe ⟨sub, hsub, hv⟩

/-- `esr exec notify --to=ops --text=done`, with nobody configured. -/
def notifyArgv : List String := ["exec", "notify", "--to=ops", "--text=done"]

theorem safe_notify : ∃ sub, submissionOf notifyArgv none 0 0 = some sub ∧ Safe sub := by
  refine ⟨⟨"010AAAAAAAAAA", "notify", "system:bootstrap",
    ⟨[("text", "done"), ("to", "ops")], by decide⟩⟩, rfl, ?_⟩
  exact ⟨by decide, by decide, by decide, by decide, by decide⟩

theorem submission_roundTrips_notify : (submissionOf notifyArgv none 0 0).isSome = true ∧
    ∀ read, Conforms (standard id) read →
      RoundTrips Args.pairs read (submissionOf notifyArgv none 0 0) := by
  obtain ⟨sub, hsub, hsafe⟩ := safe_notify
  exact ⟨rfl, (submission_roundTrips_iff (fun _ => .refl _) id hsub).1.mpr hsafe⟩

/-- A character that is not printed: the bytes of the text are shown, and every reader has
them for the text. -/
theorem not_roundTrips_control :
    (submissionOf ["exec", "notify", "--to=ops", "--text=\x01"] none 0 0).isSome = true ∧
      ∀ read, Conforms (standard id) read → ¬RoundTrips Args.pairs read
        (submissionOf ["exec", "notify", "--to=ops", "--text=\x01"] none 0 0) := by
  refine ⟨by decide +kernel, ?_⟩
  rintro read hread ⟨sub, hsub, hback⟩
  have hsub' : submissionOf ["exec", "notify", "--to=ops", "--text=\x01"] none 0 0 =
      some ⟨"010AAAAAAAAAA", "notify", "system:bootstrap",
        ⟨[("text", "\x01"), ("to", "ops")], by decide⟩⟩ := rfl
  rw [hsub'] at hsub
  cases hsub
  have hfragment : Reader.read (standard id) (fileText ⟨"010AAAAAAAAAA", "notify", "system:bootstrap",
      ⟨[("text", "\x01"), ("to", "ops")], by decide⟩⟩ [("text", "\x01"), ("to", "ops")]) =
      some (.map [(.str "args", .map [(.str "text", .str "<<1>>"), (.str "to", .str "ops")]),
        (.str "id", .str "010AAAAAAAAAA"), (.str "kind", .str "notify"),
        (.str "submitted_by", .str "system:bootstrap")]) := by decide +kernel
  rw [hread _ _ hfragment] at hback
  simp [document] at hback

end Cli
end Esr
