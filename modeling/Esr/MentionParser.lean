import Mathlib.Data.List.DropRight
import Esr.Spacing
import Esr.Strings

/-! # Mentions of agents in a message

`Esr.Entity.Agent.MentionParser` looks for the first `@name` whose name is an agent's,
takes it out of the message and gives back the rest.  The tokens are found as they should
be (`mem_scan`), but every run of spaces in the rest is collapsed, not only the one at the
place of the token: `parse_correct_iff` says when the rest of the message is left alone.
-/
namespace Esr
namespace MentionParser

open Spacing

/-! ## The source -/

/-- `[A-Za-z0-9_]`. -/
def isWord (c : Char) : Bool := c.isAlphanum || c = '_'

/-- `[a-zA-Z0-9_-]`. -/
def isNameChar (c : Char) : Bool := isWord c || c = '-'

/-- A match, with the text on both sides of it. -/
structure Token where
  before : List Char
  name : List Char
  after : List Char
deriving DecidableEq

/-- `(?:^|(?<=[^A-Za-z0-9_]))` behind this text. -/
def atBoundary (before : List Char) : Bool :=
  match before.getLast? with
  | none => true
  | some c => !isWord c

/-- `[a-zA-Z0-9]` in front of this text. -/
def startsName : List Char → Bool
  | [] => false
  | c :: _ => c.isAlphanum

/-- `Regex.scan(@mention_pattern, text, return: :index)`, from the end of `before`.  A match
takes all the characters of the name; that the scan goes on behind it and not behind its `@` makes
no difference, for no `@` stands in a name. -/
def scanFrom (before : List Char) : List Char → List Token
  | [] => []
  | c :: cs =>
      let rest := scanFrom (before ++ [c]) cs
      if c = '@' && atBoundary before && startsName cs then
        ⟨before, cs.takeWhile isNameChar, cs.dropWhile isNameChar⟩ :: rest
      else rest

/-- The text without the token, its runs of spaces collapsed, trimmed. -/
def Token.rest (t : Token) : List Char := trimBy isSpace (squeeze ' ' (t.before ++ t.after))

inductive Parsed where
  | mention (name rest : String)
  | plain (text : String)
deriving DecidableEq

/-- `find_first_agent_match/3`. -/
def findFirstAgentMatch (agentNames : List String) : List Token → Option Parsed
  | [] => none
  | t :: ts =>
      if String.ofList t.name ∈ agentNames then
        some (.mention (String.ofList t.name) (String.ofList t.rest))
      else findFirstAgentMatch agentNames ts

/-- `parse/2`. -/
def parse (text : String) (agentNames : List String) : Parsed :=
  (findFirstAgentMatch agentNames (scanFrom [] text.toList)).getD (.plain text)

/-! ## What a mention is -/

/-- `@name` in a text: behind its start or a character that is no part of a word, and up to
the first character that is no part of a name. -/
structure IsToken (text : List Char) (t : Token) : Prop where
  stands : text = t.before ++ '@' :: (t.name ++ t.after)
  boundary : ∀ c ∈ t.before.getLast?, isWord c = false
  starts : ∃ c cs, t.name = c :: cs ∧ c.isAlphanum = true
  chars : ∀ c ∈ t.name, isNameChar c = true
  maximal : ∀ c ∈ t.after.head?, isNameChar c = false

/-- The first token whose name is an agent's. -/
structure FirstKnown (text : List Char) (agentNames : List String) (t : Token) : Prop
    extends IsToken text t where
  known : String.ofList t.name ∈ agentNames
  first : ∀ t', IsToken text t' → String.ofList t'.name ∈ agentNames →
    t.before.length ≤ t'.before.length

namespace Token

/-- What is in front of the token and its spaces. -/
def left (t : Token) : List Char := t.before.rdropWhile (· = ' ')

/-- What is behind the token and its spaces. -/
def right (t : Token) : List Char := t.after.dropWhile (· = ' ')

/-- How many spaces are around the token. -/
def spaces (t : Token) : Nat :=
  (t.before.rtakeWhile (· = ' ')).length + (t.after.takeWhile (· = ' ')).length

/-- The text without the token, with `k` spaces in its place. -/
def spaced (t : Token) (k : Nat) : List Char := t.left ++ (List.replicate k ' ' ++ t.right)

end Token

/-- **What is asked of the parser.**  A mention is that of the first token with an agent's
name, and its rest the text without the token, trimmed, in which no more than the run of
spaces around the token has become shorter; and the text is plain only where no token has
an agent's name. -/
inductive Correct (text : String) (agentNames : List String) : Parsed → Prop
  | mention {t : Token} {k : Nat} (ht : FirstKnown text.toList agentNames t)
      (hk : k ≤ t.spaces) (hk' : 0 < t.spaces → 0 < k) :
      Correct text agentNames
        (.mention (String.ofList t.name) (String.ofList (trimBy isSpace (t.spaced k))))
  | plain (h : ∀ t, IsToken text.toList t → String.ofList t.name ∉ agentNames) :
      Correct text agentNames (.plain text)

/-! ## The tokens -/

theorem atBoundary_iff {before : List Char} :
    atBoundary before = true ↔ ∀ c ∈ before.getLast?, isWord c = false := by
  rw [atBoundary]
  rcases before.getLast? with _ | c
  · simp
  · simp

theorem startsName_iff {cs : List Char} :
    startsName cs = true ↔ ∃ c ds, cs.takeWhile isNameChar = c :: ds ∧ c.isAlphanum = true := by
  rcases cs with _ | ⟨c, cs⟩
  · simp [startsName]
  · by_cases hc : c.isAlphanum = true
    · have hname : isNameChar c = true := by simp [isNameChar, isWord, hc]
      simp [startsName, hname, hc]
    · rw [startsName, iff_false_intro hc, false_iff]
      rintro ⟨d, ds, hds, hd⟩
      by_cases hname : isNameChar c = true
      · rw [List.takeWhile_cons_of_pos hname] at hds
        obtain ⟨rfl, -⟩ := List.cons.inj hds
        exact hc hd
      · rw [List.takeWhile_cons_of_neg hname] at hds
        cases hds

theorem isToken_at {before cs : List Char} {c : Char} {t : Token}
    (hlength : t.before.length = before.length) :
    IsToken (before ++ c :: cs) t ↔
      (c = '@' && atBoundary before && startsName cs) = true ∧
        t = ⟨before, cs.takeWhile isNameChar, cs.dropWhile isNameChar⟩ := by
  rw [Bool.and_eq_true, Bool.and_eq_true, decide_eq_true_eq, atBoundary_iff, startsName_iff]
  constructor
  · rintro ⟨hstands, hboundary, hstarts, hchars, hmaximal⟩
    obtain ⟨rfl, hrest⟩ := List.append_inj hstands hlength.symm
    obtain ⟨rfl, rfl⟩ := List.cons.inj hrest
    have htake : t.after.takeWhile isNameChar = [] := by
      rcases hafter : t.after with _ | ⟨d, ds⟩
      · rfl
      · rw [List.takeWhile_cons_of_neg]
        rw [hmaximal d (by rw [hafter]; rfl)]
        exact Bool.false_ne_true
    rw [List.takeWhile_append_of_pos hchars, htake, List.append_nil,
      dropWhile_append_of_all hchars, dropWhile_of_head hmaximal]
    exact ⟨⟨⟨rfl, hboundary⟩, hstarts⟩, rfl⟩
  · rintro ⟨⟨⟨rfl, hboundary⟩, hstarts⟩, rfl⟩
    refine ⟨?_, hboundary, hstarts, fun _ => List.mem_takeWhile_imp, fun d hd => ?_⟩
    · rw [List.takeWhile_append_dropWhile]
    · have hnot := List.head?_dropWhile_not isNameChar cs
      rw [hd] at hnot
      exact hnot

/-- **The scan finds every token, each where it stands.** -/
theorem mem_scanFrom {before cs : List Char} {t : Token} :
    t ∈ scanFrom before cs ↔ IsToken (before ++ cs) t ∧ before.length ≤ t.before.length := by
  induction cs generalizing before with
  | nil =>
    simp only [scanFrom, List.not_mem_nil, List.append_nil, false_iff, not_and, not_le]
    intro h
    have hlength := congrArg List.length h.stands
    rw [List.length_append, List.length_cons] at hlength
    omega
  | cons c cs ih =>
    have hrest : t ∈ scanFrom (before ++ [c]) cs ↔
        IsToken (before ++ c :: cs) t ∧ before.length < t.before.length := by
      rw [ih, List.append_assoc, List.length_append]
      exact Iff.rfl
    have hhead : t ∈ scanFrom before (c :: cs) ↔
        ((c = '@' && atBoundary before && startsName cs) = true ∧
          t = ⟨before, cs.takeWhile isNameChar, cs.dropWhile isNameChar⟩) ∨
        t ∈ scanFrom (before ++ [c]) cs := by
      rw [scanFrom]
      by_cases h : (c = '@' && atBoundary before && startsName cs) = true
      · rw [if_pos h, List.mem_cons, and_iff_right h]
      · rw [if_neg h, or_iff_right fun hand => h hand.1]
    rw [hhead, hrest]
    constructor
    · rintro (⟨hat, ht⟩ | ⟨htoken, hlt⟩)
      · have hlength : t.before.length = before.length := by rw [ht]
        exact ⟨(isToken_at hlength).mpr ⟨hat, ht⟩, hlength.ge⟩
      · exact ⟨htoken, hlt.le⟩
    · rintro ⟨htoken, hle⟩
      rcases hle.eq_or_lt with heq | hlt
      · exact .inl ((isToken_at heq.symm).mp htoken)
      · exact .inr ⟨htoken, hlt⟩

theorem pairwise_scanFrom (before cs : List Char) :
    (scanFrom before cs).Pairwise fun t t' => t.before.length ≤ t'.before.length := by
  induction cs generalizing before with
  | nil => exact List.Pairwise.nil
  | cons c cs ih =>
    rw [scanFrom]
    split
    · refine List.pairwise_cons.mpr ⟨fun t ht => ?_, ih _⟩
      have hle := (mem_scanFrom.mp ht).2
      rw [List.length_append] at hle
      exact (Nat.le_add_right _ _).trans hle
    · exact ih _

theorem findFirstAgentMatch_eq_none {agentNames : List String} {ts : List Token} :
    findFirstAgentMatch agentNames ts = none ↔ ∀ t ∈ ts, String.ofList t.name ∉ agentNames := by
  induction ts with
  | nil => simp [findFirstAgentMatch]
  | cons t ts ih =>
    rw [findFirstAgentMatch, List.forall_mem_cons]
    by_cases h : String.ofList t.name ∈ agentNames
    · simp [h]
    · rw [if_neg h, ih, and_iff_right h]

theorem of_findFirstAgentMatch {agentNames : List String} {ts : List Token} {p : Parsed}
    (hsorted : ts.Pairwise fun t t' => t.before.length ≤ t'.before.length)
    (h : findFirstAgentMatch agentNames ts = some p) :
    ∃ t ∈ ts, String.ofList t.name ∈ agentNames ∧
      (∀ t' ∈ ts, String.ofList t'.name ∈ agentNames → t.before.length ≤ t'.before.length) ∧
      p = .mention (String.ofList t.name) (String.ofList t.rest) := by
  induction ts with
  | nil => cases h
  | cons t ts ih =>
    obtain ⟨hhead, htail⟩ := List.pairwise_cons.mp hsorted
    rw [findFirstAgentMatch] at h
    by_cases hknown : String.ofList t.name ∈ agentNames
    · rw [if_pos hknown] at h
      refine ⟨t, List.mem_cons_self, hknown, fun t' ht' _ => ?_, (Option.some.inj h).symm⟩
      rcases List.mem_cons.mp ht' with rfl | ht'
      · exact le_rfl
      · exact hhead t' ht'
    · rw [if_neg hknown] at h
      obtain ⟨u, hu, hname, hfirst, hp⟩ := ih htail h
      refine ⟨u, List.mem_cons_of_mem t hu, hname, fun t' ht' hname' => ?_, hp⟩
      rcases List.mem_cons.mp ht' with rfl | ht'
      · exact absurd hname' hknown
      · exact hfirst t' ht' hname'

theorem parse_cases (text : String) (agentNames : List String) :
    (∃ t, FirstKnown text.toList agentNames t ∧
      parse text agentNames = .mention (String.ofList t.name) (String.ofList t.rest)) ∨
    (∀ t, IsToken text.toList t → String.ofList t.name ∉ agentNames) ∧
      parse text agentNames = .plain text := by
  have hmem : ∀ t, t ∈ scanFrom [] text.toList ↔ IsToken text.toList t := by
    intro t
    rw [mem_scanFrom, List.nil_append]
    exact and_iff_left (Nat.zero_le _)
  rw [parse]
  rcases hfind : findFirstAgentMatch agentNames (scanFrom [] text.toList) with _ | p
  · refine .inr ⟨fun t ht => ?_, rfl⟩
    exact findFirstAgentMatch_eq_none.mp hfind t ((hmem t).mpr ht)
  · obtain ⟨t, ht, hknown, hfirst, rfl⟩ := of_findFirstAgentMatch (pairwise_scanFrom _ _) hfind
    refine .inl ⟨t, ⟨(hmem t).mp ht, hknown, fun t' ht' => ?_⟩, rfl⟩
    exact hfirst t' ((hmem t').mpr ht')

theorem FirstKnown.unique {text : List Char} {agentNames : List String} {t t' : Token}
    (h : FirstKnown text agentNames t) (h' : FirstKnown text agentNames t') : t = t' := by
  have hlength := le_antisymm (h.first t' h'.toIsToken h'.known) (h'.first t h.toIsToken h.known)
  have htoken := h.toIsToken
  have htoken' := h'.toIsToken
  rw [h'.stands] at htoken htoken'
  exact ((isToken_at hlength).mp htoken).2.trans ((isToken_at rfl).mp htoken').2.symm

/-! ## The rest of the message -/

namespace Token

theorem before_append_after (t : Token) : t.before ++ t.after = t.spaced t.spaces := by
  have hbefore : t.before.rtakeWhile (· = ' ') =
      List.replicate (t.before.rtakeWhile (· = ' ')).length ' ' :=
    List.eq_replicate_iff.mpr ⟨rfl, fun c hc => by simpa using List.mem_rtakeWhile_imp hc⟩
  have hafter : t.after.takeWhile (· = ' ') =
      List.replicate (t.after.takeWhile (· = ' ')).length ' ' :=
    List.eq_replicate_iff.mpr ⟨rfl, fun c hc => by simpa using List.mem_takeWhile_imp hc⟩
  rw [spaced, spaces, List.replicate_add, ← hbefore, ← hafter, left, right, List.append_assoc,
    List.takeWhile_append_dropWhile, ← List.append_assoc, List.rdropWhile_append_rtakeWhile]

theorem getLast?_left (t : Token) : t.left.getLast? ≠ some ' ' := by
  intro h
  have hne : t.left ≠ [] := by
    rintro he
    rw [he] at h
    cases h
  have hnot := List.rdropWhile_last_not (fun c => decide (c = ' ')) t.before hne
  rw [List.getLast?_eq_some_getLast hne] at h
  exact hnot (decide_eq_true (Option.some.inj h))

theorem head?_right (t : Token) : t.right.head? ≠ some ' ' := by
  intro h
  have hnot := List.head?_dropWhile_not (fun c => decide (c = ' ')) t.after
  rw [show t.after.dropWhile _ = t.right from rfl, h] at hnot
  simp at hnot

theorem rest_eq (t : Token) :
    t.rest = squeeze ' ' (trimBy isSpace (t.spaced (min 1 t.spaces))) := by
  have hsqueeze : squeeze ' ' (t.spaced t.spaces) = squeeze ' ' (t.spaced (min 1 t.spaces)) := by
    rcases hn : t.spaces with _ | n
    · rfl
    · rw [Nat.min_eq_left (Nat.le_add_left 1 n), spaced, spaced, squeeze_replicate]
      rfl
  rw [rest, before_append_after, hsqueeze, trimBy_squeeze (by decide)]

theorem inside_spaced (t : Token) {k : Nat} (h : Inside isSpace ' ' (t.spaced 1)) :
    Inside isSpace ' ' (t.spaced k) := by
  obtain ⟨a, b, he, ha, hb⟩ := h
  have hspaced : t.left ++ ' ' :: t.right = a ++ ' ' :: ' ' :: b := he
  rcases List.append_eq_append_iff.mp hspaced with ⟨d, rfl, hd⟩ | ⟨d, hleft, hd⟩
  · -- They stand behind the token.
    rcases d with _ | ⟨e, d⟩
    · obtain ⟨-, hright⟩ := List.cons.inj hd
      exact absurd (congrArg List.head? hright) t.head?_right
    · obtain ⟨rfl, hright⟩ := List.cons.inj hd
      refine ⟨t.left ++ (List.replicate k ' ' ++ d), b, ?_, ?_, hb⟩
      · rw [spaced, show t.right = d ++ ' ' :: ' ' :: b from hright]
        simp
      · obtain ⟨c, hc, hwhite⟩ := ha
        refine ⟨c, ?_, hwhite⟩
        rcases List.mem_append.mp hc with hc | hc
        · exact List.mem_append_left _ hc
        · rcases List.mem_cons.mp hc with rfl | hc
          · cases hwhite
          · exact List.mem_append_right _ (List.mem_append_right _ hc)
  · rcases d with _ | ⟨e, _ | ⟨f, d⟩⟩
    · obtain ⟨-, hright⟩ := List.cons.inj hd
      exact absurd (congrArg List.head? hright.symm) t.head?_right
    · obtain ⟨rfl, -⟩ := List.cons.inj hd
      exact absurd (by rw [hleft]; exact List.getLast?_concat) t.getLast?_left
    · obtain ⟨hc, hd⟩ := List.cons.inj hd
      obtain ⟨hf, rfl⟩ := List.cons.inj hd
      rw [← hc, ← hf] at hleft
      refine ⟨a, d ++ (List.replicate k ' ' ++ t.right), ?_, ha, ?_⟩
      · rw [spaced, hleft]
        simp
      · obtain ⟨c, hc, hwhite⟩ := hb
        refine ⟨c, ?_, hwhite⟩
        rcases List.mem_append.mp hc with hc | hc
        · exact List.mem_append_left _ hc
        · rcases List.mem_cons.mp hc with rfl | hc
          · cases hwhite
          · exact List.mem_append_right _ (List.mem_append_right _ hc)

end Token

theorem correct_mention {text : String} {agentNames : List String} {name rest : String} :
    Correct text agentNames (.mention name rest) ↔
      ∃ t k, FirstKnown text.toList agentNames t ∧ k ≤ t.spaces ∧ (0 < t.spaces → 0 < k) ∧
        name = String.ofList t.name ∧ rest = String.ofList (trimBy isSpace (t.spaced k)) := by
  constructor
  · rintro ⟨ht, hk, hk'⟩
    exact ⟨_, _, ht, hk, hk', rfl, rfl⟩
  · rintro ⟨t, k, ht, hk, hk', rfl, rfl⟩
    exact .mention ht hk hk'

/-- **The parser does what is asked of it exactly when the text has no two adjacent spaces but
around the token**, with something other than white space on either side. -/
theorem parse_correct_iff (text : String) (agentNames : List String) :
    Correct text agentNames (parse text agentNames) ↔
      ∀ t, FirstKnown text.toList agentNames t →
        ¬ Inside isSpace ' ' (t.spaced (min 1 t.spaces)) := by
  rcases parse_cases text agentNames with ⟨t, ht, hparse⟩ | ⟨hnone, hparse⟩ <;> rw [hparse]
  · rw [correct_mention]
    constructor
    · rintro ⟨t', k, ht', hk, hk', -, hrest⟩ u hu hinside
      obtain rfl := ht.unique ht'
      obtain rfl := ht.unique hu
      have hrest : t.rest = trimBy isSpace (t.spaced k) := String.ofList_injective hrest
      have hinsidek : Inside isSpace ' ' (t.spaced k) := by
        rcases hn : t.spaces with _ | n
        · rw [hn] at hk hinside
          rw [Nat.le_zero.mp hk]
          exact hinside
        · rw [Nat.min_eq_left (by omega)] at hinside
          exact t.inside_spaced hinside
      have hdoubled := (doubled_trimBy (by decide) _).mpr hinsidek
      rw [← hrest, t.rest_eq] at hdoubled
      exact (not_doubled_squeezeFrom false _).1 hdoubled
    · intro h
      have hnot := fun hdoubled => h t ht ((doubled_trimBy (by decide) _).mp hdoubled)
      refine ⟨t, min 1 t.spaces, ht, Nat.min_le_right 1 _, fun hpos => ?_, rfl, ?_⟩
      · exact Nat.lt_min.mpr ⟨Nat.one_pos, hpos⟩
      · rw [t.rest_eq, squeeze_eq_self.mpr hnot]
  · exact iff_of_true (.plain hnone) fun t ht => absurd ht.known (hnone t ht.toIsToken)

/-- The indentation of the code behind a mention is lost. -/
theorem not_correct_indented :
    ¬ ∀ (text : String) (agentNames : List String),
      Correct text agentNames (parse text agentNames) := by
  intro h
  have hparse : parse "@alice def f():\n    return 1" ["alice"] =
      .mention "alice" "def f():\n return 1" := by decide
  have hcorrect := h "@alice def f():\n    return 1" ["alice"]
  rw [hparse, correct_mention] at hcorrect
  obtain ⟨t, k, ht, hk, hk', -, hrest⟩ := hcorrect
  have hfirst : FirstKnown "@alice def f():\n    return 1".toList ["alice"]
      ⟨[], "alice".toList, " def f():\n    return 1".toList⟩ :=
    ⟨⟨by decide, nofun, ⟨'a', "lice".toList, by decide, by decide⟩,
      List.all_eq_true.mp (by decide), fun c hc => Option.mem_some.mp hc ▸ by decide⟩,
      by decide, fun _ _ _ => Nat.zero_le _⟩
  obtain rfl := ht.unique hfirst
  obtain rfl : k = 1 := le_antisymm hk (hk' (by decide))
  exact absurd hrest (by decide)

end MentionParser
end Esr
