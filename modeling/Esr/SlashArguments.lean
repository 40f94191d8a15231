import Esr.SlashHandler
import Esr.Words

/-! # From the matched route to its arguments

`lookup` finds the route of a text by its first words: any key or alias that they
spell, one space between two words.  `parse_route_args` does not learn which words
these were.  It strips the literal text of the primary key from the front, and what
is left, white space apart, are the arguments.

So the two agree on where the command ends exactly if the text begins with the
primary key letter by letter.  After an alias, or with other white space inside the
key, nothing is stripped and the command's own words become arguments.
-/
namespace Esr
open Yaml SlashHandler

namespace SlashArguments

/-- The words `lookup` goes by. -/
def tokens (text : String) : List String := words (trim text)

/-- The words the parser takes for arguments. -/
def argTokens (text slash : String) : List String := words (trim (stripSlashPrefix text slash))

/-- The numbers of words `lookup` tries, as in `keysInText`. -/
def lengths (text : String) : List Nat :=
  if tokens text = [] then [0, 1] else ((List.range (tokens text).length).map (· + 1)).reverse

/-- The first words of the text, as a key. -/
def keyOf (text : String) (n : Nat) : String := " ".intercalate ((tokens text).take n)

/-- How many words the key has that `lookup` finds. -/
def matchedWords (reg : SlashRegistry) (text : String) : Nat :=
  ((lengths text).find? fun n => (reg.slashTable.lookup (keyOf text n)).isSome).getD 0

/-- The primary key with the same arguments after it. -/
def canonical (slash : String) (rest : List String) : String := " ".intercalate (slash :: rest)

/-- The arguments of the text are the words after the first `n`: the parser goes by
them, and finds what it finds in the canonical spelling. -/
structure ParsesRest (text : String) (route : SlashRoute) (n : Nat) : Prop where
  tokens : route.args ≠ [] → argTokens text route.slash = (tokens text).drop n
  canonical : parseRouteArgs text route =
    parseRouteArgs (canonical route.slash ((SlashArguments.tokens text).drop n)) route

/-- The white space a text begins with. -/
def leadingSpace (s : String) : String := String.ofList (s.toList.takeWhile isSpace)

/-- What the parser passes over: the primary key and the white space after it, where
the text begins with the key. -/
def skipped (text slash : String) : String :=
  match stripPrefix slash (trim text) with
  | some rest => slash ++ leadingSpace rest
  | none => ""

/-- The parser passes over `n` words, up to an ASCII space or to the end of the
text. -/
def Spelled (text slash : String) (n : Nat) : Prop :=
  (words (skipped text slash)).length = n ∧
    (skipped text slash = trim text ∨
      ∃ c, (skipped text slash).toList.getLast? = some c ∧ asciiSpace c = true)

/-! ## What `lookup` matches -/

section
variable {reg : SlashRegistry} {text : String} {route : SlashRoute}

theorem keysInText_eq (text : String) :
    SlashRegistry.keysInText text = (lengths text).map (keyOf text) := rfl

theorem mem_lengths {n : Nat} (h : n ∈ lengths text) :
    (tokens text = [] ∧ n ≤ 1) ∨ (1 ≤ n ∧ n ≤ (tokens text).length) := by
  unfold lengths at h
  by_cases hempty : tokens text = []
  · rw [if_pos hempty] at h
    refine .inl ⟨hempty, ?_⟩
    rcases List.mem_cons.mp h with rfl | h
    · exact Nat.zero_le 1
    · exact (List.mem_singleton.mp h).le
  · rw [if_neg hempty, List.mem_reverse, List.mem_map] at h
    obtain ⟨k, hk, rfl⟩ := h
    exact .inr ⟨Nat.succ_pos k, List.mem_range.mp hk⟩

theorem head_mem_keys {word : String} (h : (tokens text).head? = some word) :
    ∃ n ∈ lengths text, keyOf text n = word := by
  obtain ⟨rest, hrest⟩ : ∃ rest, tokens text = word :: rest := by
    cases ht : tokens text with
    | nil =>
      rw [ht] at h
      cases h
    | cons w rest =>
      rw [ht] at h
      exact ⟨rest, by rw [Option.some.inj h]⟩
  refine ⟨1, ?_, ?_⟩
  · rw [lengths, if_neg (by rw [hrest]; exact List.cons_ne_nil _ _), List.mem_reverse,
      List.mem_map]
    exact ⟨0, List.mem_range.mpr (by rw [hrest]; exact Nat.succ_pos _), rfl⟩
  · rw [keyOf, hrest]
    exact String.intercalate_singleton

/-- **The match**: the key that is found has as many words as `matchedWords` says,
and the text has that many. -/
theorem matched_of_lookup (h : reg.lookup text = some route) :
    reg.slashTable.lookup (keyOf text (matchedWords reg text)) = some route ∧
      matchedWords reg text ≤ (tokens text).length ∧
      (tokens text ≠ [] → 1 ≤ matchedWords reg text) := by
  unfold SlashRegistry.lookup at h
  rw [keysInText_eq, List.findSome?_map] at h
  cases hfind : (lengths text).find? fun n => (reg.slashTable.lookup (keyOf text n)).isSome with
  | none =>
    have hnone : ∀ n ∈ lengths text, reg.slashTable.lookup (keyOf text n) = none := by
      intro n hn
      simpa using List.find?_eq_none.mp hfind n hn
    have hall : (lengths text).findSome? (reg.slashTable.lookup ∘ keyOf text) = none :=
      List.findSome?_eq_none_iff.mpr hnone
    rw [hall] at h
    dsimp only at h
    obtain ⟨word, hword, hlookup⟩ := Option.bind_eq_some_iff.mp h
    obtain ⟨n, hn, rfl⟩ := head_mem_keys hword
    cases (hnone n hn).symm.trans hlookup
  | some n =>
    have hmatched : matchedWords reg text = n := by rw [matchedWords, hfind]; rfl
    obtain ⟨hsome, before, after, hsplit, hbefore⟩ := List.find?_eq_some_iff_append.mp hfind
    obtain ⟨found, hfound⟩ := Option.isSome_iff_exists.mp hsome
    have hfirst : (lengths text).findSome? (reg.slashTable.lookup ∘ keyOf text) = some found := by
      rw [hsplit, List.findSome?_append, List.findSome?_eq_none_iff.mpr, Option.none_or,
        List.findSome?_cons_of_isSome]
      · exact hfound
      · exact hsome
      · intro m hm
        simpa using hbefore m hm
    rw [hfirst] at h
    obtain rfl := Option.some.inj h
    rw [hmatched]
    have hmem : n ∈ lengths text := hsplit ▸ List.mem_append_right _ List.mem_cons_self
    rcases mem_lengths hmem with ⟨hempty, hle⟩ | ⟨hpos, hle⟩
    · -- without words both keys that are tried are empty, so the first is found
      have hzero : n = 0 := by
        rw [lengths, if_pos hempty] at hsplit
        cases before with
        | nil => exact (List.cons.inj hsplit).1.symm
        | cons m before =>
          have hm := hbefore m List.mem_cons_self
          have hsame : keyOf text m = keyOf text n := by simp [keyOf, hempty]
          rw [hsame, hsome] at hm
          cases hm
      exact ⟨hfound, hzero.le.trans (Nat.zero_le _), fun hne => absurd hempty hne⟩
    · exact ⟨hfound, hle, fun _ => hpos⟩

end

/-! ## What the parser reads -/

section
variable {text slash : String}

theorem skipped_of_some {rest : String} (h : stripPrefix slash (trim text) = some rest) :
    skipped text slash = slash ++ leadingSpace rest := by rw [skipped, h]

theorem skipped_of_none (h : stripPrefix slash (trim text) = none) : skipped text slash = "" := by
  rw [skipped, h]

/-- **The remainder**: the parser's words are those of what follows the part passed
over, which begins at a word. -/
theorem exists_remainder (text slash : String) :
    ∃ r : List Char, (trim text).toList = (skipped text slash).toList ++ r ∧
      (∀ c, r.head? = some c → isSpace c = false) ∧
      (∀ c, r.getLast? = some c → isSpace c = false) ∧
      argTokens text slash = wordsFrom asciiSpace [] r := by
  cases hstrip : stripPrefix slash (trim text) with
  | none =>
    have hwhole : stripSlashPrefix text slash = trim text := by rw [stripSlashPrefix, hstrip]
    refine ⟨(trim text).toList, ?_, (trimmed_trim text).1, (trimmed_trim text).2, ?_⟩
    · rw [skipped_of_none hstrip, String.toList_empty, List.nil_append]
    · rw [argTokens, hwhole, trim_trim, words_eq]
  | some rest =>
    have hrest : stripSlashPrefix text slash = trim rest := by rw [stripSlashPrefix, hstrip]
    have htext : (trim text).toList = slash.toList ++ rest.toList := by
      rw [stripPrefix_eq_some.mp hstrip, String.toList_append]
    have hlast : ∀ c, rest.toList.getLast? = some c → isSpace c = false := by
      intro c hc
      refine (trimmed_trim text).2 c ?_
      rw [htext, List.getLast?_append, hc]
      rfl
    refine ⟨rest.toList.dropWhile isSpace, ?_, fun c hc => head?_dropWhile hc, ?_, ?_⟩
    · rw [skipped_of_some hstrip, String.toList_append, leadingSpace, String.toList_ofList, htext,
        List.append_assoc, List.takeWhile_append_dropWhile]
    · intro c hc
      refine hlast c ?_
      obtain ⟨t, ht⟩ := List.dropWhile_suffix isSpace (l := rest.toList)
      rw [← ht, List.getLast?_append, hc]
      rfl
    · rw [argTokens, hrest, trim_trim, words_eq, trim_of_last hlast]

theorem words_divide {a r : List Char}
    (h : r = [] ∨ ∃ c, a.getLast? = some c ∧ asciiSpace c = true) :
    wordsFrom asciiSpace [] (a ++ r) =
      wordsFrom asciiSpace [] a ++ wordsFrom asciiSpace [] r := by
  rcases h with rfl | ⟨c, hc, hspace⟩
  · rw [List.append_nil]
    exact (List.append_nil _).symm
  · obtain ⟨front, rfl⟩ := List.getLast?_eq_some_iff.mp hc
    rw [List.append_assoc, List.singleton_append, wordsFrom_append_sep hspace,
      wordsFrom_append_sep hspace]
    simp [wordsFrom]

/-- **Where the arguments begin**, for a command of one word or more. -/
theorem argTokens_eq_iff {n : Nat} (hpos : 0 < n) (hle : n ≤ (tokens text).length) :
    argTokens text slash = (tokens text).drop n ↔ Spelled text slash n := by
  obtain ⟨r, htext, hhead, -, hargs⟩ := exists_remainder text slash
  have htokens : tokens text = wordsFrom asciiSpace [] ((skipped text slash).toList ++ r) := by
    rw [tokens, words_eq, htext]
  have hall : r = [] ↔ skipped text slash = trim text := by
    rw [← String.toList_inj, htext]
    simp
  unfold Spelled
  rw [hargs, ← hall, words_eq]
  generalize (skipped text slash).toList = a at htokens ⊢
  by_cases hborder : r = [] ∨ ∃ c, a.getLast? = some c ∧ asciiSpace c = true
  · rw [htokens, words_divide hborder] at hle ⊢
    rw [List.length_append] at hle
    constructor
    · intro h
      have hlen := congrArg List.length h
      rw [List.length_drop, List.length_append] at hlen
      exact ⟨by omega, hborder⟩
    · rintro ⟨rfl, -⟩
      rw [List.drop_left]
  · obtain ⟨hr, hnospace⟩ := not_or.mp hborder
    refine iff_of_false ?_ fun h => hborder h.2
    by_cases ha : a = []
    · -- nothing is passed over, so the command's own words are among the arguments
      subst ha
      rw [htokens, List.nil_append]
      intro h
      have hlen := congrArg List.length h
      rw [htokens, List.nil_append] at hle
      rw [List.length_drop] at hlen
      omega
    · rw [htokens]
      refine wordsFrom_drop_ne ha ?_ hr (fun c hc => asciiSpace_of_not_isSpace (hhead c hc)) n
      intro c hc
      exact Bool.eq_false_iff.mpr fun hspace => hnospace ⟨c, hc, hspace⟩

theorem argTokens_append {x : String} (h : Trimmed (slash ++ x).toList) :
    argTokens (slash ++ x) slash = words (trim x) := by
  have hstrip : stripPrefix slash (slash ++ x) = some x := stripPrefix_eq_some.mpr rfl
  rw [argTokens, stripSlashPrefix, trim_of_trimmed h, hstrip]
  dsimp only
  rw [trim_trim]

theorem begins_of_spelled {n : Nat} (hpos : 0 < n) (h : Spelled text slash n) :
    ∃ gap : List Char, (skipped text slash).toList = slash.toList ++ gap ∧
      (∀ c ∈ gap, isSpace c = true) ∧
      ∃ c, slash.toList.head? = some c ∧ isSpace c = false := by
  cases hstrip : stripPrefix slash (trim text) with
  | none =>
    have hlen := h.1
    rw [skipped_of_none hstrip] at hlen
    exact absurd hlen hpos.ne
  | some rest =>
    have hskipped : (skipped text slash).toList = slash.toList ++ rest.toList.takeWhile isSpace := by
      rw [skipped_of_some hstrip, String.toList_append, leadingSpace, String.toList_ofList]
    have htext : (trim text).toList = slash.toList ++ rest.toList := by
      rw [stripPrefix_eq_some.mp hstrip, String.toList_append]
    refine ⟨rest.toList.takeWhile isSpace, hskipped, fun c hc => List.mem_takeWhile_imp hc, ?_⟩
    have hhead := (trimmed_trim text).1
    rw [htext] at hhead
    cases hslash : slash.toList with
    | cons c cs => exact ⟨c, rfl, hhead c (by rw [hslash]; rfl)⟩
    | nil =>
      -- an empty key passes over nothing, as the text begins with no white space
      rw [hslash, List.nil_append] at hskipped hhead
      have hnone : rest.toList.takeWhile isSpace = [] := by
        cases hr : rest.toList with
        | nil => rfl
        | cons c cs =>
          rw [List.takeWhile_cons_of_neg (Bool.eq_false_iff.mp (hhead c (by rw [hr]; rfl)))]
      have hlen := h.1
      rw [words_eq, hskipped, hnone] at hlen
      exact absurd hlen hpos.ne

theorem argTokens_key (h : Trimmed slash.toList) : argTokens (canonical slash []) slash = [] := by
  have hkey : canonical slash [] = slash ++ "" := by
    rw [String.append_empty]
    exact String.intercalate_singleton
  rw [hkey, argTokens_append (by rwa [String.append_empty])]
  rfl

theorem argTokens_joined {r : List Char} {c : Char} (hslash : slash.toList.head? = some c)
    (hc : isSpace c = false) (hr : Trimmed r) (hne : r ≠ []) :
    argTokens (canonical slash (wordsFrom asciiSpace [] r)) slash =
      wordsFrom asciiSpace [] r := by
  have hsep : ∀ {c : Char}, isSpace c = false → asciiSpace c = false := asciiSpace_of_not_isSpace
  obtain ⟨hhead, hlast⟩ := ends_intercalate (p := asciiSpace) (fun c hc => hsep (hr.1 c hc))
    (fun c hc => hsep (hr.2 c hc))
  obtain ⟨x, r', rfl⟩ := List.exists_cons_of_ne_nil hne
  have hsome : wordsFrom asciiSpace [] (x :: r') ≠ [] := by
    obtain ⟨w, rest, hw⟩ := wordsFrom_cons (hsep (hr.1 x rfl)) r'
    rw [hw]
    exact List.cons_ne_nil _ _
  have hread := wordsFrom_intercalate (p := asciiSpace) rfl
    fun t (ht : t ∈ wordsFrom asciiSpace [] (x :: r')) => isWord_of_mem ht
  have hkey : canonical slash (wordsFrom asciiSpace [] (x :: r')) =
      slash ++ (" " ++ " ".intercalate (wordsFrom asciiSpace [] (x :: r'))) := by
    rw [canonical, String.intercalate_cons_of_ne_nil hsome, String.append_assoc]
  generalize " ".intercalate (wordsFrom asciiSpace [] (x :: r')) = joined at *
  have hend : ∀ c, joined.toList.getLast? = some c → isSpace c = false := by
    intro c hc
    exact hr.2 c (hlast ▸ hc)
  have hjoined : joined.toList ≠ [] := by
    intro he
    rw [he] at hhead
    cases hhead
  have htrimmed : Trimmed (slash ++ (" " ++ joined)).toList := by
    refine ⟨fun d hd => ?_, fun d hd => hend d ?_⟩
    · rw [String.toList_append, List.head?_append, hslash] at hd
      obtain rfl := Option.some.inj hd
      exact hc
    · rw [String.toList_append, String.toList_append, List.getLast?_append, List.getLast?_append,
        List.getLast?_eq_some_getLast hjoined] at hd
      rw [List.getLast?_eq_some_getLast hjoined]
      exact hd
  have hinner : (trim (" " ++ joined)).toList = joined.toList := by
    rw [trim_of_last fun d hd => hend d ?_, String.toList_append]
    · show (' ' :: joined.toList).dropWhile isSpace = _
      rw [List.dropWhile_cons_of_pos rfl]
      exact dropWhile_of_head fun d hd => hr.1 d (hhead ▸ hd)
    · rw [String.toList_append, List.getLast?_append,
        List.getLast?_eq_some_getLast hjoined] at hd
      rw [List.getLast?_eq_some_getLast hjoined]
      exact hd
  rw [hkey, argTokens_append htrimmed, words_eq, hinner]
  exact hread

theorem argTokens_canonical {n : Nat} (hpos : 0 < n) (h : Spelled text slash n) :
    argTokens (canonical slash (argTokens text slash)) slash = argTokens text slash := by
  obtain ⟨r, htext, hhead, hlast, hargs⟩ := exists_remainder text slash
  obtain ⟨gap, hskipped, hgap, c, hslash, hc⟩ := begins_of_spelled hpos h
  rw [hargs]
  by_cases hne : r = []
  · -- nothing follows, so the text is the primary key
    subst hne
    have htrimmed := trimmed_trim text
    rw [htext, hskipped, List.append_nil] at htrimmed
    have hnogap : gap = [] := by
      rcases List.eq_nil_or_concat gap with hg | ⟨gap', d, hg⟩
      · exact hg
      · rw [List.concat_eq_append] at hg
        subst hg
        have hd := htrimmed.2 d (by rw [← List.append_assoc, List.getLast?_concat])
        rw [hgap d (List.mem_append_right _ List.mem_cons_self)] at hd
        cases hd
    rw [hnogap, List.append_nil] at htrimmed
    exact argTokens_key htrimmed
  · exact argTokens_joined hslash hc ⟨hhead, hlast⟩ hne

theorem parseRouteArgs_congr {text' : String} {route : SlashRoute}
    (h : argTokens text route.slash = argTokens text' route.slash) :
    parseRouteArgs text route = parseRouteArgs text' route := by
  unfold argTokens at h
  unfold parseRouteArgs
  rw [h]

/-- **Agreement.**  The arguments are the words after the matched ones exactly if
the route has none, or the text is spelled with its primary key. -/
theorem parsesRest_iff {reg : SlashRegistry} {route : SlashRoute}
    (h : reg.lookup text = some route) (hwords : 0 < matchedWords reg text) :
    ParsesRest text route (matchedWords reg text) ↔
      route.args = [] ∨ Spelled text route.slash (matchedWords reg text) := by
  obtain ⟨-, hle, -⟩ := matched_of_lookup h
  have hiff : argTokens text route.slash = (tokens text).drop (matchedWords reg text) ↔
      Spelled text route.slash (matchedWords reg text) := argTokens_eq_iff hwords hle
  constructor
  · intro hparses
    by_cases hargs : route.args = []
    · exact .inl hargs
    · exact .inr (hiff.mp (hparses.tokens hargs))
  · rintro (hargs | hspelled)
    · refine ⟨fun hne => absurd hargs hne, ?_⟩
      unfold parseRouteArgs
      rw [hargs]
    · have htokens := hiff.mpr hspelled
      refine ⟨fun _ => htokens, ?_⟩
      have hcanonical := argTokens_canonical hwords hspelled
      rw [htokens] at hcanonical
      exact parseRouteArgs_congr (htokens.trans hcanonical.symm)

end

/-! ## A primary key and an alias -/

/-- A route of two words with one argument, under its primary key and an alias. -/
def infoRoutes : SlashRegistry :=
  let route : SlashRoute :=
    ⟨"/workspace info", "workspace_info", false, false, [⟨"name", false, .null⟩]⟩
  ⟨(Ets.empty.insert "/workspace info" route).insert "/wi" route, .empty⟩

/-- What decides the two examples: the primary key of the route that is found, and
the number of its arguments. -/
def found (text : String) : Option (String × Nat) :=
  (infoRoutes.lookup text).map fun route => (route.slash, route.args.length)

theorem exists_of_found {text slash : String} {n : Nat} (h : found text = some (slash, n)) :
    ∃ route, infoRoutes.lookup text = some route ∧ route.slash = slash ∧ route.args.length = n := by
  obtain ⟨route, hroute, he⟩ := Option.map_eq_some_iff.mp h
  obtain ⟨hslash, hn⟩ := Prod.mk.inj he
  exact ⟨route, hroute, hslash, hn⟩

/-- With the primary key, and more white space than needed after it, the argument is
the third word. -/
theorem parsesRest_primaryKey :
    ∃ route, infoRoutes.lookup "/workspace info   dev" = some route ∧
      ParsesRest "/workspace info   dev" route
        (matchedWords infoRoutes "/workspace info   dev") := by
  obtain ⟨route, hroute, hslash, -⟩ := exists_of_found
    (show found "/workspace info   dev" = some ("/workspace info", 1) by decide +kernel)
  have hwords : matchedWords infoRoutes "/workspace info   dev" = 2 := by decide +kernel
  refine ⟨route, hroute, (parsesRest_iff hroute (by rw [hwords]; decide)).mpr (.inr ?_)⟩
  rw [hslash, hwords]
  exact ⟨by decide +kernel, .inr ⟨' ', by decide +kernel, rfl⟩⟩

/-- **The alias is read as an argument.** -/
theorem not_parsesRest_alias :
    ¬∀ (reg : SlashRegistry) (text : String) (route : SlashRoute),
      reg.lookup text = some route → 0 < matchedWords reg text →
        ParsesRest text route (matchedWords reg text) := by
  intro h
  obtain ⟨route, hroute, hslash, hargs⟩ := exists_of_found
    (show found "/wi dev" = some ("/workspace info", 1) by decide +kernel)
  have hwords : matchedWords infoRoutes "/wi dev" = 1 := by decide +kernel
  have htokens := (h infoRoutes "/wi dev" route hroute (by rw [hwords]; decide)).tokens (by
    intro hnone
    rw [hnone] at hargs
    cases hargs)
  rw [hslash, hwords] at htokens
  revert htokens
  decide +kernel

end SlashArguments
end Esr
