import Mathlib.Data.List.TakeWhile
import SettingCatalog.Proofs.Query.Grammar
import SettingCatalog.Proofs.Result

/-! A text is parsed to a query exactly if the grammar derives it. What a reader takes off the text
is the text of its part of a derivation, and the text of such a part is taken off whole. -/

namespace SettingCatalog.Query

open Grammar

lemma parseChar_ok {c : Char} {what : Expected} {cs rest : List Char} :
    parseChar c what cs = .ok rest ↔ cs = c :: rest := by
  unfold parseChar
  split
  · simp
  · split <;> simp_all

/-! ### Names and values -/

lemma not_mem_takeWhile_bne (c : Char) (cs : List Char) : c ∉ cs.takeWhile (· != c) := by
  intro h
  simpa using List.mem_takeWhile_imp h

lemma stops_dropWhile (p : Char → Bool) (cs : List Char) : Stops p (cs.dropWhile p) := by
  intro c hc
  have h := List.head?_dropWhile_not p cs
  rw [Option.mem_def.mp hc] at h
  exact h

lemma parseName_sound {what : Expected} {cs rest : List Char} {name : String}
    (h : parseName what cs = .ok (name, rest)) :
    ∃ n : Name, cs = n.chars ++ rest ∧ n.spelled = name ∧ Stops isNameChar rest := by
  unfold parseName at h
  split at h
  · cases h
  · rename_i hne
    simp only [Except.ok.injEq, Prod.mk.injEq] at h
    obtain ⟨rfl, rfl⟩ := h
    exact ⟨⟨cs.takeWhile isNameChar, hne, fun _ => List.mem_takeWhile_imp⟩,
      List.takeWhile_append_dropWhile.symm, rfl, stops_dropWhile isNameChar cs⟩

lemma parseName_complete (what : Expected) (n : Name) {rest : List Char}
    (h : Stops isNameChar rest) : parseName what (n.chars ++ rest) = .ok (n.spelled, rest) := by
  unfold parseName
  rw [takeWhile_run n.named h, dropWhile_run n.named h]
  split
  · exact absurd ‹_› n.nonempty
  · rfl

lemma parseValue_sound {cs rest : List Char} {value : String}
    (h : parseValue cs = .ok (value, rest)) :
    ∃ v : Value, cs = v.text ++ rest ∧ v.spelled = value ∧ v.Closed rest := by
  unfold parseValue at h
  split at h
  · cases h
  · rename_i c tail
    split at h
    · rename_i hq
      split at h
      · cases h
      · rename_i d behind hd
        simp only [Except.ok.injEq, Prod.mk.injEq] at h
        obtain ⟨rfl, rfl⟩ := h
        obtain rfl : d = c := by
          have hs := stops_dropWhile (· != c) tail
          rw [hd] at hs
          simpa using hs d rfl
        refine ⟨.quoted d (tail.takeWhile (· != d)) hq (not_mem_takeWhile_bne d tail), ?_, rfl,
          trivial⟩
        have hsplit : tail = tail.takeWhile (· != d) ++ d :: behind := by
          rw [← hd, List.takeWhile_append_dropWhile]
        simpa [Value.text] using hsplit
    · rename_i hq
      split at h
      · cases h
      · rename_i hne
        simp only [Except.ok.injEq, Prod.mk.injEq] at h
        obtain ⟨rfl, rfl⟩ := h
        have hhead : ∀ d ∈ ((c :: tail).takeWhile (· != ']')).head?, isQuote d = false := by
          intro d hd
          obtain rfl : c = d := by
            rw [List.takeWhile_cons] at hd
            split at hd <;> simp_all
          simpa using hq
        exact ⟨.bare _ hne hhead (not_mem_takeWhile_bne ']' _),
          (List.takeWhile_append_dropWhile (p := (· != ']')) (l := c :: tail)).symm, rfl,
          stops_dropWhile (· != ']') (c :: tail)⟩

lemma parseValue_complete (v : Value) {rest : List Char} (h : v.Closed rest) :
    parseValue (v.text ++ rest) = .ok (v.spelled, rest) := by
  cases v with
  | quoted q cs hq hc =>
    have hs : Stops (· != q) (q :: rest) := stops_cons (by simp)
    have ht := takeWhile_run (forall_bne hc) hs
    have hd := dropWhile_run (forall_bne hc) hs
    simp [Value.text, parseValue, hq, ht, hd, Value.spelled, Value.chars]
  | bare cs hn hu hc =>
    have ht := takeWhile_run (forall_bne hc) h
    have hd := dropWhile_run (forall_bne hc) h
    obtain ⟨c, cs, rfl⟩ := List.exists_cons_of_ne_nil hn
    have hq : isQuote c = false := hu c rfl
    rw [List.cons_append] at ht hd
    simp [Value.text, parseValue, hq, ht, hd, Value.spelled, Value.chars]

/-! ### Predicates -/

lemma parsePredicate_sound {cs rest : List Char} {p : Predicate}
    (h : parsePredicate cs = .ok (p, rest)) :
    ∃ f : Filter, '[' :: cs = f.text ++ rest ∧ f.predicate = p := by
  simp only [parsePredicate, ok_of_bind, ok_of_pure, parseChar_ok, Prod.exists,
    Prod.mk.injEq] at h
  obtain ⟨_, rfl, name, _, hn, _, rfl, value, _, hv, _, rfl, rfl, rfl⟩ := h
  obtain ⟨n, rfl, rfl, -⟩ := parseName_sound hn
  obtain ⟨v, rfl, rfl, -⟩ := parseValue_sound hv
  exact ⟨⟨n, v⟩, by simp [Filter.text], rfl⟩

lemma parsePredicate_complete (f : Filter) (rest : List Char) :
    ∃ cs, f.text ++ rest = '[' :: cs ∧ parsePredicate cs = .ok (f.predicate, rest) := by
  refine ⟨'@' :: (f.name.chars ++ '=' :: (f.value.text ++ ']' :: rest)), by simp [Filter.text], ?_⟩
  simp only [parsePredicate, ok_of_bind, ok_of_pure, parseChar_ok, Prod.exists, Prod.mk.injEq]
  exact ⟨_, rfl, _, _, parseName_complete _ _ (stops_mark _ (by simp)), _, rfl, _, _,
    parseValue_complete _ (f.value.closed_bracket rest), _, rfl, rfl, rfl⟩

lemma parsePredicates_sound {rounds : ℕ} {cs rest : List Char} {ps : List Predicate}
    (h : parsePredicates rounds cs = .ok (ps, rest)) :
    ∃ fs : List Filter, cs = fs.flatMap Filter.text ++ rest ∧ fs.map Filter.predicate = ps := by
  fun_induction parsePredicates rounds cs generalizing ps with
  | case1 rounds cs ih =>
    simp only [ok_of_bind, ok_of_pure, Prod.exists, Prod.mk.injEq] at h
    obtain ⟨p, behind, hp, qs, _, hqs, rfl, rfl⟩ := h
    obtain ⟨f, hf, rfl⟩ := parsePredicate_sound hp
    obtain ⟨fs, rfl, rfl⟩ := ih behind hqs
    exact ⟨f :: fs, by simp [hf], rfl⟩
  | case2 rounds cs _ =>
    simp only [Except.ok.injEq, Prod.mk.injEq] at h
    exact ⟨[], h.2, h.1⟩

lemma parsePredicates_complete {rounds : ℕ} (fs : List Filter) {rest : List Char}
    (hr : (fs.flatMap Filter.text).length ≤ rounds) (hs : Stops (· == '[') rest) :
    parsePredicates rounds (fs.flatMap Filter.text ++ rest) =
      .ok (fs.map Filter.predicate, rest) := by
  induction fs generalizing rounds with
  | nil =>
    unfold parsePredicates
    split
    · rename_i cs _ _ hc
      simpa using hs '[' (by simpa using congrArg List.head? hc)
    · rfl
  | cons f fs ih =>
    obtain ⟨cs, hcs, hp⟩ := parsePredicate_complete f (fs.flatMap Filter.text ++ rest)
    simp only [List.flatMap_cons, List.length_append] at hr
    have hpos : 0 < f.text.length := by simp [Filter.text]
    obtain ⟨rounds, rfl⟩ : ∃ k, rounds = k + 1 := ⟨rounds - 1, by omega⟩
    rw [List.flatMap_cons, List.append_assoc, hcs]
    simp only [parsePredicates, ok_of_bind, ok_of_pure, Prod.exists, Prod.mk.injEq]
    exact ⟨_, _, hp, _, _, ih (by omega), rfl, rfl⟩

lemma parsePredicate_shorter {cs rest : List Char} {p : Predicate}
    (h : parsePredicate cs = .ok (p, rest)) : rest.length < cs.length := by
  obtain ⟨f, hf, -⟩ := parsePredicate_sound h
  have hl := congrArg List.length hf
  simp only [Filter.text, List.length_cons, List.length_append, List.length_nil] at hl
  omega

lemma parsePredicates_stops {rounds : ℕ} {cs rest : List Char} {ps : List Predicate}
    (hr : cs.length ≤ rounds) (h : parsePredicates rounds cs = .ok (ps, rest)) :
    Stops (· == '[') rest := by
  fun_induction parsePredicates rounds cs generalizing ps with
  | case1 rounds cs ih =>
    simp only [ok_of_bind, ok_of_pure, Prod.exists, Prod.mk.injEq] at h
    obtain ⟨p, behind, hp, qs, _, hqs, -, rfl⟩ := h
    have hlt := parsePredicate_shorter hp
    rw [List.length_cons] at hr
    exact ih behind (by omega) hqs
  | case2 rounds cs hne =>
    simp only [Except.ok.injEq, Prod.mk.injEq] at h
    obtain ⟨-, rfl⟩ := h
    rw [stops_beq_iff]
    rintro tail rfl
    rw [List.length_cons] at hr
    obtain ⟨rounds, rfl⟩ : ∃ k, rounds = k + 1 := ⟨rounds - 1, by omega⟩
    exact hne rounds tail rfl rfl

lemma parsePredicates_rounds {rounds more : ℕ} {cs : List Char} (hr : cs.length ≤ rounds)
    (hm : cs.length ≤ more) : parsePredicates rounds cs = parsePredicates more cs := by
  induction rounds generalizing more cs with
  | zero =>
    obtain rfl : cs = [] := List.length_eq_zero_iff.mp (Nat.le_zero.mp hr)
    simp [parsePredicates]
  | succ rounds ih =>
    by_cases hc : ∃ tail, cs = '[' :: tail
    · obtain ⟨tail, rfl⟩ := hc
      simp only [List.length_cons] at hr hm
      obtain ⟨more, rfl⟩ : ∃ k, more = k + 1 := ⟨more - 1, by omega⟩
      simp only [parsePredicates]
      cases hp : parsePredicate tail with
      | error e => rfl
      | ok x =>
        have hx := parsePredicate_shorter hp
        simp only [bind, Except.bind]
        rw [ih (by omega) (show x.2.length ≤ more by omega)]
    · have hne : ∀ tail, cs ≠ '[' :: tail := fun tail h => hc ⟨tail, h⟩
      unfold parsePredicates
      split
      · exact absurd rfl (hne _)
      · split
        · exact absurd rfl (hne _)
        · rfl

/-! ### Steps -/

def slashes (deep : Bool) : List Char := if deep then ['/', '/'] else ['/']

lemma parseTarget_sound {deep : Bool} {cs rest : List Char} {axis : Axis} {test : Test}
    (h : parseTarget deep cs = .ok (axis, test, rest)) :
    ∃ t : Target, slashes deep ++ cs = t.text ++ rest ∧ t.axis = axis ∧ t.test = test ∧
      t.Closed rest := by
  unfold parseTarget at h
  split at h
  · cases deep with
    | false =>
      simp only [Bool.false_eq_true, if_false, Except.ok.injEq, Prod.mk.injEq] at h
      obtain ⟨rfl, rfl, rfl⟩ := h
      exact ⟨.parent, rfl, rfl, rfl, trivial⟩
    | true => cases h
  · rename_i hdots
    cases deep with
    | false =>
      simp only [Bool.false_eq_true, if_false, Except.ok.injEq, Prod.mk.injEq] at h
      obtain ⟨rfl, rfl, rfl⟩ := h
      exact ⟨.current, rfl, rfl, rfl, stops_beq_iff.mpr fun tail ht => hdots tail ht⟩
    | true => cases h
  · dsimp only at h
    split at h
    · simp only [Except.ok.injEq, Prod.mk.injEq] at h
      obtain ⟨rfl, rfl, rfl⟩ := h
      exact ⟨.down deep none, by cases deep <;> rfl, by cases deep <;> rfl, rfl, trivial⟩
    · simp only [ok_of_bind, ok_of_pure, Prod.exists, Prod.mk.injEq] at h
      obtain ⟨name, behind, hn, rfl, rfl, rfl⟩ := h
      obtain ⟨n, rfl, rfl, hs⟩ := parseName_sound hn
      exact ⟨.down deep (some n), by cases deep <;> rfl, by cases deep <;> rfl, rfl, hs⟩

lemma parseTarget_down (deep : Bool) (name? : Option Name) {rest : List Char}
    (h : (Target.down deep name?).Closed rest) :
    parseTarget deep (testText name? ++ rest) =
      .ok ((Target.down deep name?).axis, (Target.down deep name?).test, rest) := by
  have haxis : (if deep then Axis.descendant else .child) = (Target.down deep name?).axis := by
    cases deep <;> rfl
  obtain ⟨c, cs, hc, -, hdot⟩ := head_testText name?
  unfold parseTarget
  split
  · simp_all
  · simp_all
  · rw [haxis]
    cases name? with
    | none => rfl
    | some n =>
      dsimp only
      split
      · rename_i hn
        exact absurd hn.symm n.not_star
      · simp only [ok_of_bind, ok_of_pure, Prod.exists]
        exact ⟨_, _, parseName_complete _ n h, rfl⟩

lemma parseTarget_dot {rest : List Char} (hd : Stops (· == '.') rest) :
    parseTarget false ('.' :: rest) = .ok (.current, .any, rest) := by
  unfold parseTarget
  split
  · rename_i tail hc
    rw [(List.cons.inj hc).2] at hd
    simpa using hd '.' rfl
  · simp_all
  · simp_all

lemma parseBehind_sound {deep : Bool} {cs rest : List Char} {s : Step}
    (h : parseBehind deep cs = .ok (s, rest)) :
    ∃ g : Segment, slashes deep ++ cs = g.text ++ rest ∧ g.step = s ∧ g.Closed rest := by
  simp only [parseBehind, ok_of_bind, ok_of_pure, Prod.exists, Prod.mk.injEq] at h
  obtain ⟨axis, test, behind, ht, ps, _, hp, rfl, rfl⟩ := h
  obtain ⟨t, htext, rfl, rfl, hc⟩ := parseTarget_sound ht
  have hs := parsePredicates_stops (Nat.le_refl _) hp
  obtain ⟨fs, rfl, rfl⟩ := parsePredicates_sound hp
  exact ⟨⟨t, fs⟩, by rw [htext, Segment.text, List.append_assoc], rfl, hs, hc⟩

lemma parseStep_sound {cs rest : List Char} {s : Step} (h : parseStep cs = .ok (s, rest)) :
    ∃ g : Segment, cs = g.text ++ rest ∧ g.step = s ∧ g.Closed rest := by
  simp only [parseStep, ok_of_bind, parseChar_ok] at h
  obtain ⟨tail, rfl, h⟩ := h
  split at h <;> exact parseBehind_sound h

lemma parseStep_slash {cs : List Char} (h : Stops (· == '/') cs) :
    parseStep ('/' :: cs) = parseBehind false cs := by
  simp only [parseStep, parseChar, if_true, bind, Except.bind]
  split
  · simpa using h '/' rfl
  · rfl

lemma parseStep_target (t : Target) {rest : List Char} (h : t.Closed rest) :
    parseStep (t.text ++ rest) = do
      let (predicates, cs) ← parsePredicates rest.length rest
      return (⟨t.axis, t.test, predicates⟩, cs) := by
  have behind {deep : Bool} {cs : List Char}
      (ht : parseTarget deep cs = .ok (t.axis, t.test, rest)) :
      parseBehind deep cs = do
        let (predicates, cs) ← parsePredicates rest.length rest
        return (⟨t.axis, t.test, predicates⟩, cs) := by
    rw [parseBehind, ht]
    rfl
  cases t with
  | parent => exact (parseStep_slash (stops_cons (by decide))).trans (behind rfl)
  | current => exact (parseStep_slash (stops_cons (by decide))).trans (behind (parseTarget_dot h))
  | down deep name? =>
    cases deep with
    | false =>
      obtain ⟨c, cs, hc, hslash, -⟩ := head_testText name?
      rw [Target.text, List.cons_append, parseStep_slash]
      · exact behind (parseTarget_down false name? h)
      · rw [hc]
        exact stops_cons (by simpa using hslash)
    | true => exact behind (parseTarget_down true name? h)

lemma parseStep_complete (g : Segment) {rest : List Char} (h : g.Closed rest) :
    parseStep (g.text ++ rest) = .ok (g.step, rest) := by
  rw [Segment.text, List.append_assoc, parseStep_target g.target h.2]
  simp only [ok_of_bind, ok_of_pure, Prod.exists, Prod.mk.injEq]
  exact ⟨_, _, parsePredicates_complete g.filters (by simp) h.1, rfl, rfl⟩

lemma parseStep_shorter {cs rest : List Char} {s : Step} (h : parseStep cs = .ok (s, rest)) :
    rest.length < cs.length := by
  obtain ⟨g, rfl, -, -⟩ := parseStep_sound h
  obtain ⟨tail, ht⟩ := g.opens
  rw [ht, List.length_append, List.length_cons]
  omega

/-! ### Paths -/

lemma parseSteps_sound {rounds : ℕ} {cs : List Char} {steps : List Step}
    (h : parseSteps rounds cs = .ok steps) :
    ∃ gs : List Segment, cs = gs.flatMap Segment.text ∧ gs.map Segment.step = steps := by
  fun_induction parseSteps rounds cs generalizing steps with
  | case1 => exact ⟨[], rfl, by simpa using h⟩
  | case2 => cases h
  | case3 rounds cs _ ih =>
    simp only [ok_of_bind, ok_of_pure, Prod.exists] at h
    obtain ⟨s, behind, hs, rest, hrest, rfl⟩ := h
    obtain ⟨g, rfl, rfl, -⟩ := parseStep_sound hs
    obtain ⟨gs, rfl, rfl⟩ := ih behind hrest
    exact ⟨g :: gs, rfl, rfl⟩

lemma parseSteps_complete {rounds : ℕ} (gs : List Segment)
    (h : (gs.flatMap Segment.text).length ≤ rounds) :
    parseSteps rounds (gs.flatMap Segment.text) = .ok (gs.map Segment.step) := by
  induction gs generalizing rounds with
  | nil => cases rounds <;> rfl
  | cons g gs ih =>
    obtain ⟨tail, ht⟩ := g.opens
    have hs := parseStep_complete g ((ends_segments gs [] ends_nil).closed g)
    rw [List.append_nil] at hs
    simp only [List.flatMap_cons, List.length_append, ht, List.length_cons] at h
    obtain ⟨rounds, rfl⟩ : ∃ k, rounds = k + 1 := ⟨rounds - 1, by omega⟩
    rw [List.flatMap_cons, parseSteps]
    · simp only [ok_of_bind, ok_of_pure, Prod.exists]
      exact ⟨_, _, hs, _, ih (by omega), rfl⟩
    · simp [ht]

lemma parseSteps_rounds {rounds more : ℕ} {cs : List Char} (hr : cs.length ≤ rounds)
    (hm : cs.length ≤ more) : parseSteps rounds cs = parseSteps more cs := by
  induction rounds generalizing more cs with
  | zero =>
    obtain rfl : cs = [] := List.length_eq_zero_iff.mp (Nat.le_zero.mp hr)
    simp [parseSteps]
  | succ rounds ih =>
    cases cs with
    | nil => simp [parseSteps]
    | cons c cs =>
      simp only [List.length_cons] at hr hm
      obtain ⟨more, rfl⟩ : ∃ k, more = k + 1 := ⟨more - 1, by omega⟩
      simp only [parseSteps]
      cases hs : parseStep (c :: cs) with
      | error e => rfl
      | ok x =>
        have hx : x.2.length < cs.length + 1 := parseStep_shorter hs
        simp only [bind, Except.bind]
        rw [ih (by omega) (show x.2.length ≤ more by omega)]

lemma not_isBlank_slash : Text.isBlank '/' = false := by decide

lemma Grammar.Derivation.opens (d : Derivation) : ∃ tail, d.text = '/' :: tail := by
  obtain ⟨g, gs, hg⟩ := List.exists_cons_of_ne_nil d.nonempty
  obtain ⟨tail, ht⟩ := g.opens
  exact ⟨tail ++ gs.flatMap Segment.text, by rw [text, hg, List.flatMap_cons, ht, List.cons_append]⟩

theorem parse_eq_ok_iff {s : String} {q : Query} :
    parse s = .ok q ↔ ∃ d : Derivation, d.text = s.toList ∧ d.query = q := by
  constructor
  · intro h
    unfold parse at h
    split at h
    · cases h
    · rename_i hb
      split at h
      · rename_i steps hs
        cases h
        obtain ⟨gs, hg, rfl⟩ := parseSteps_sound hs
        refine ⟨⟨gs, ?_⟩, hg.symm, rfl⟩
        rintro rfl
        simp [Text.isBlankText, hg] at hb
      · cases h
  · rintro ⟨d, ht, rfl⟩
    obtain ⟨tail, ho⟩ := d.opens
    have hb : Text.isBlankText s = false := by
      rw [Text.isBlankText, ← ht, ho, List.all_cons, not_isBlank_slash, Bool.false_and]
    have hs : parseSteps s.length s.toList = .ok (d.segments.map Segment.step) := by
      rw [← ht]
      apply parseSteps_complete
      rw [← String.length_toList, ← ht]
      exact Nat.le_refl _
    rw [parse, hb, hs]
    rfl

/-- A text is parsed to a query exactly if a derivation with this text means the query, and a text
has one derivation at most. The bounds on the rounds of the two loops are never what ends them. -/
theorem parse_iff_derivation :
    (∀ (s : String) (q : Query),
      parse s = .ok q ↔ ∃ d : Derivation, d.text = s.toList ∧ d.query = q) ∧
    Function.Injective Derivation.text ∧
    ∀ (cs : List Char) (more : ℕ),
      parsePredicates (cs.length + more) cs = parsePredicates cs.length cs ∧
      parseSteps (cs.length + more) cs = parseSteps cs.length cs := by
  refine ⟨fun _ _ => parse_eq_ok_iff, fun _ _ => Derivation.unique, fun cs more => ⟨?_, ?_⟩⟩
  · exact parsePredicates_rounds (Nat.le_add_right _ _) (Nat.le_refl _)
  · exact parseSteps_rounds (Nat.le_add_right _ _) (Nat.le_refl _)

end SettingCatalog.Query
