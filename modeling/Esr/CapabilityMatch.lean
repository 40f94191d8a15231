import Esr.Strings

/-! # Matching a held capability against a required one

A capability is written `prefix:name/perm`.  A held one covers a required one
when the prefixes are the same and the name and the permission of the held one
are each the required one or a bare `*`; the string `*` alone covers everything.
`Scoped` is that syntax with the proof that it reads back, and `Covers` the
relation on strings.

Three matchers are written against it: `Grants.capMatches` for the global table,
`SessionProcess.matchOne` for a session's own copy, and
`CapabilitiesChecker.capMatches` on the Python side.  The last two decide
`Covers`.  The first also accepts two equal strings of any shape, so the three
agree except on equal strings that are not of the scoped form
(`matchers_agree_iff`).
-/
namespace Esr

/-- A capability `prefix:name/perm`, cut at the first `/` and at the first `:`
before it. -/
@[ext] structure Scoped where
  scopePrefix : String
  name : String
  perm : String
  prefix_no_colon : ':' ∉ scopePrefix.toList
  prefix_no_slash : '/' ∉ scopePrefix.toList
  name_no_slash : '/' ∉ name.toList

namespace Scoped

/-- The string the capability is written as. -/
def text (c : Scoped) : String := c.scopePrefix ++ ":" ++ c.name ++ "/" ++ c.perm

/-- The string up to the `/`. -/
def scope (c : Scoped) : String := c.scopePrefix ++ ":" ++ c.name

/-- `h` covers `r`: same prefix, and each other segment equal or a bare `*`. -/
def Covers (h r : Scoped) : Prop :=
  h.scopePrefix = r.scopePrefix ∧ (h.name = "*" ∨ h.name = r.name) ∧
    (h.perm = "*" ∨ h.perm = r.perm)

theorem Covers.refl (c : Scoped) : c.Covers c := ⟨rfl, Or.inr rfl, Or.inr rfl⟩

theorem scope_no_slash (c : Scoped) : '/' ∉ c.scope.toList := by
  simp [scope, c.prefix_no_slash, c.name_no_slash]

theorem split_text (c : Scoped) : splitParts2 '/' c.text = [c.scope, c.perm] :=
  splitParts2_eq_pair.mpr ⟨rfl, c.scope_no_slash⟩

theorem split_scope (c : Scoped) : splitParts2 ':' c.scope = [c.scopePrefix, c.name] :=
  splitParts2_eq_pair.mpr ⟨rfl, c.prefix_no_colon⟩

theorem exists_of_split {s sc pm p n : String} (hs : splitParts2 '/' s = [sc, pm])
    (hsc : splitParts2 ':' sc = [p, n]) :
    ∃ c : Scoped, c.text = s ∧ c.scopePrefix = p ∧ c.name = n ∧ c.perm = pm := by
  obtain ⟨rfl, hslash⟩ := splitParts2_eq_pair.mp hs
  obtain ⟨rfl, hcolon⟩ := splitParts2_eq_pair.mp hsc
  simp only [String.toList_append, List.mem_append, not_or] at hslash
  exact ⟨⟨p, n, pm, hcolon, hslash.1.1, hslash.2⟩, rfl, rfl, rfl, rfl⟩

theorem text_injective {c d : Scoped} (h : c.text = d.text) : c = d := by
  have h1 := c.split_text
  rw [h, d.split_text] at h1
  obtain ⟨hscope, hperm⟩ : d.scope = c.scope ∧ d.perm = c.perm := by simpa using h1
  have h2 := c.split_scope
  rw [← hscope, d.split_scope] at h2
  obtain ⟨hpre, hname⟩ : d.scopePrefix = c.scopePrefix ∧ d.name = c.name := by simpa using h2
  exact Scoped.ext hpre.symm hname.symm hperm.symm

end Scoped

/-- The string is a scoped capability. -/
def IsScoped (s : String) : Prop := ∃ c : Scoped, c.text = s

/-- The held string covers the required one. -/
def Covers (held required : String) : Prop :=
  held = "*" ∨ ∃ h r : Scoped, h.text = held ∧ r.text = required ∧ h.Covers r

theorem Scoped.text_ne_star (c : Scoped) : c.text ≠ "*" := by
  intro h
  have hcolon : ':' ∈ c.text.toList := by simp [text]
  rw [h] at hcolon
  simp at hcolon

theorem Scoped.Covers.trans {a b c : Scoped} (hab : a.Covers b) (hbc : b.Covers c) :
    a.Covers c := by
  obtain ⟨hp, hn, hm⟩ := hab
  obtain ⟨hp', hn', hm'⟩ := hbc
  refine ⟨hp.trans hp', ?_, ?_⟩
  · rcases hn with hstar | he
    · exact Or.inl hstar
    · rwa [he]
  · rcases hm with hstar | he
    · exact Or.inl hstar
    · rwa [he]

theorem Covers.trans {a b c : String} (hab : Covers a b) (hbc : Covers b c) : Covers a c := by
  rcases hab with hstar | ⟨h, r, rfl, rfl, hcov⟩
  · exact Or.inl hstar
  rcases hbc with hstar | ⟨h', r', he, rfl, hcov'⟩
  · exact absurd hstar r.text_ne_star
  · obtain rfl := Scoped.text_injective he
    exact Or.inr ⟨h, r', rfl, rfl, hcov.trans hcov'⟩

theorem Covers.self {s : String} (h : IsScoped s) : Covers s s := by
  obtain ⟨c, rfl⟩ := h
  exact Or.inr ⟨c, c, rfl, rfl, .refl c⟩

/-! ## The global table -/

namespace Grants

/-- `split/1`. -/
def split (str : String) : Option (String × String × String) :=
  match splitParts2 '/' str with
  | [scope, perm] =>
      match splitParts2 ':' scope with
      | [scopePrefix, name] => some (scopePrefix, name, perm)
      | _ => none
  | _ => none

/-- `segment_match?/2`. -/
def segmentMatch (held required : String) : Bool := held == "*" || held == required

/-- `matches?/2`.  The second clause is the exact-string fallback for flat names
such as `session.list`. -/
def capMatches (held required : String) : Bool :=
  if held = "*" then true
  else if held = required then true
  else
    match split held, split required with
    | some (hPrefix, hName, hPerm), some (rPrefix, rName, rPerm) =>
        hPrefix == rPrefix && (segmentMatch hName rName && segmentMatch hPerm rPerm)
    | _, _ => false

end Grants

/-! ## The per-session copy -/

namespace SessionProcess

/-- `seg_match?/2`. -/
def segMatch (held required : String) : Bool := held == "*" || held == required

/-- `match_one?/2`. -/
def matchOne (held required : String) : Bool :=
  if held = "*" then true
  else
    match splitParts2 '/' held with
    | [hScope, hPerm] =>
        match splitParts2 ':' hScope with
        | [hPrefix, hName] =>
            match splitParts2 '/' required with
            | [rScope, rPerm] =>
                match splitParts2 ':' rScope with
                | [rPrefix, rName] =>
                    hPrefix == rPrefix && (segMatch hName rName && segMatch hPerm rPerm)
                | _ => false
            | _ => false
        | _ => false
    | _ => false

end SessionProcess

/-! ## The Python checker -/

namespace CapabilitiesChecker

/-- `_split`.  The unpacking after each membership test cannot fail. -/
def split (s : String) : Option (String × String × String) :=
  if '/' ∉ s.toList then none
  else
    match splitParts2 '/' s with
    | [scope, perm] =>
        if ':' ∉ scope.toList then none
        else
          match splitParts2 ':' scope with
          | [scopePrefix, name] => some (scopePrefix, name, perm)
          | _ => none
    | _ => none

/-- `_segment_match`. -/
def segmentMatch (held required : String) : Bool :=
  if held = "*" then true else held == required

/-- `_matches`. -/
def capMatches (held required : String) : Bool :=
  if held = "*" then true
  else
    match split held, split required with
    | some (hPrefix, hName, hPerm), some (rPrefix, rName, rPerm) =>
        if hPrefix ≠ rPrefix then false
        else segmentMatch hName rName && segmentMatch hPerm rPerm
    | _, _ => false

end CapabilitiesChecker

/-! ## What the splits compute -/

theorem Grants.split_eq_some {s p n m : String} :
    Grants.split s = some (p, n, m) ↔
      ∃ c : Scoped, c.text = s ∧ c.scopePrefix = p ∧ c.name = n ∧ c.perm = m := by
  constructor
  · intro h
    unfold Grants.split at h
    split at h
    · rename_i sc pm hs
      split at h
      · rename_i p' n' hsc
        simp only [Option.some.injEq, Prod.mk.injEq] at h
        obtain ⟨rfl, rfl, rfl⟩ := h
        exact Scoped.exists_of_split hs hsc
      · cases h
    · cases h
  · rintro ⟨c, rfl, rfl, rfl, rfl⟩
    simp only [Grants.split, c.split_text, c.split_scope]

theorem CapabilitiesChecker.split_eq (s : String) :
    CapabilitiesChecker.split s = Grants.split s := by
  unfold CapabilitiesChecker.split Grants.split
  by_cases hs : '/' ∈ s.toList
  · rw [if_neg (not_not.mpr hs)]
    split
    · rename_i sc pm _
      by_cases hsc : ':' ∈ sc.toList
      · rw [if_neg (not_not.mpr hsc)]
      · rw [if_pos hsc, splitParts2_eq_whole hsc]
    · rfl
  · rw [if_pos hs, splitParts2_eq_whole hs]

theorem Grants.split_text (c : Scoped) :
    Grants.split c.text = some (c.scopePrefix, c.name, c.perm) :=
  Grants.split_eq_some.mpr ⟨c, rfl, rfl, rfl, rfl⟩

/-! ## What the matchers decide -/

/-- The comparison all three end with, on the two strings' parts. -/
def partsMatch (held required : String) : Bool :=
  match Grants.split held, Grants.split required with
  | some (hPrefix, hName, hPerm), some (rPrefix, rName, rPerm) =>
      hPrefix == rPrefix && (Grants.segmentMatch hName rName && Grants.segmentMatch hPerm rPerm)
  | _, _ => false

theorem partsMatch_iff {held required : String} :
    partsMatch held required = true ↔
      ∃ h r : Scoped, h.text = held ∧ r.text = required ∧ h.Covers r := by
  unfold partsMatch
  constructor
  · intro hm
    split at hm
    · rename_i hp hn hq rp rn rq hh hr
      obtain ⟨h, rfl, rfl, rfl, rfl⟩ := Grants.split_eq_some.mp hh
      obtain ⟨r, rfl, rfl, rfl, rfl⟩ := Grants.split_eq_some.mp hr
      simp only [Grants.segmentMatch, Bool.and_eq_true, Bool.or_eq_true, beq_iff_eq] at hm
      exact ⟨h, r, rfl, rfl, hm⟩
    · cases hm
  · rintro ⟨h, r, rfl, rfl, hcov⟩
    simpa [Grants.split_text, Grants.segmentMatch, Scoped.Covers] using hcov

theorem SessionProcess.matchOne_eq (held required : String) :
    SessionProcess.matchOne held required = (decide (held = "*") || partsMatch held required) := by
  unfold SessionProcess.matchOne partsMatch Grants.split
  by_cases hstar : held = "*"
  · simp [hstar]
  rw [if_neg hstar, decide_eq_false hstar, Bool.false_or]
  split
  · split
    · split
      · split <;> rfl
      · rfl
    · rfl
  · rfl

theorem CapabilitiesChecker.capMatches_eq (held required : String) :
    CapabilitiesChecker.capMatches held required =
      (decide (held = "*") || partsMatch held required) := by
  unfold CapabilitiesChecker.capMatches partsMatch
  rw [CapabilitiesChecker.split_eq, CapabilitiesChecker.split_eq]
  by_cases hstar : held = "*"
  · simp [hstar]
  rw [if_neg hstar, decide_eq_false hstar, Bool.false_or]
  have hseg : ∀ a b, CapabilitiesChecker.segmentMatch a b = Grants.segmentMatch a b := by
    intro a b
    by_cases ha : a = "*" <;> simp [CapabilitiesChecker.segmentMatch, Grants.segmentMatch, ha]
  split
  · rename_i hp hn hq rp rn rq _ _
    by_cases hpre : hp = rp <;> simp [hpre, hseg]
  · rfl

theorem SessionProcess.matchOne_iff {held required : String} :
    SessionProcess.matchOne held required = true ↔ Covers held required := by
  rw [SessionProcess.matchOne_eq, Bool.or_eq_true, decide_eq_true_eq, partsMatch_iff, Covers]

theorem Grants.capMatches_iff {held required : String} :
    Grants.capMatches held required = true ↔ held = required ∨ Covers held required := by
  unfold Grants.capMatches
  by_cases hstar : held = "*"
  · simp [hstar, Covers]
  by_cases heq : held = required
  · simp [heq]
  rw [if_neg hstar, if_neg heq]
  have hparts : partsMatch held required = true ↔ _ := partsMatch_iff
  exact hparts.trans (by simp [Covers, hstar, heq])

theorem Grants.capMatches_refl (s : String) : Grants.capMatches s s = true :=
  Grants.capMatches_iff.mpr (Or.inl rfl)

theorem Grants.capMatches_trans {a b c : String} (hab : Grants.capMatches a b = true)
    (hbc : Grants.capMatches b c = true) : Grants.capMatches a c = true := by
  rw [Grants.capMatches_iff] at hab hbc ⊢
  rcases hab with rfl | hab
  · exact hbc
  rcases hbc with rfl | hbc
  · exact Or.inr hab
  · exact Or.inr (hab.trans hbc)

/-- **When the three matchers agree**: on every two strings, except two equal
ones other than `*` that are not of the form `prefix:name/perm`. -/
theorem matchers_agree_iff (held required : String) :
    (Grants.capMatches held required = SessionProcess.matchOne held required ∧
        SessionProcess.matchOne held required = CapabilitiesChecker.capMatches held required) ↔
      ¬(held = required ∧ held ≠ "*" ∧ ¬IsScoped held) := by
  have hpy : SessionProcess.matchOne held required =
      CapabilitiesChecker.capMatches held required := by
    rw [SessionProcess.matchOne_eq, CapabilitiesChecker.capMatches_eq]
  rw [Bool.eq_iff_iff, Grants.capMatches_iff, SessionProcess.matchOne_iff, and_iff_left hpy]
  constructor
  · rintro hagree ⟨rfl, hstar, hshape⟩
    rcases hagree.mp (Or.inl rfl) with h | ⟨h, _, hh, _⟩
    · exact hstar h
    · exact hshape ⟨h, hh⟩
  · intro hcond
    refine ⟨?_, Or.inr⟩
    rintro (rfl | hcov)
    · by_contra hnot
      exact hcond ⟨rfl, fun h => hnot (Or.inl h), fun h => hnot (.self h)⟩
    · exact hcov

/-- The flat permission `session.list`, held and required, splits the matchers. -/
theorem matchers_differ_on_flat :
    ¬∀ held required : String,
      Grants.capMatches held required = SessionProcess.matchOne held required ∧
        SessionProcess.matchOne held required =
          CapabilitiesChecker.capMatches held required := by
  intro h
  exact absurd (h "session.list" "session.list").1 (by decide)

end Esr
