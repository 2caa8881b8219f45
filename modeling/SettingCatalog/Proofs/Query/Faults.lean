import SettingCatalog.Proofs.Query.Parsing

/-! Where a text ceases to be the beginning of a query. Faults are described beside the parts of a
derivation: what was read up to a place, and what would have to come next. A text is refused with a
problem exactly if it has that fault. The parts that were read can be completed, and a fault asks
nothing of what stands behind the next character, so no text that goes on in the same way is a query
either. -/

namespace SettingCatalog.Query

open Grammar

namespace Problem

def rest : Problem → List Char
  | expected _ rest => rest
  | unterminated rest => rest
  | invalidDescendant _ rest => rest

def isOpen : Problem → Bool
  | unterminated _ => true
  | _ => false

end Problem

/-! ### Faults of the readers -/

lemma parseChar_error {c : Char} {what : Expected} {cs : List Char} {p : Problem} :
    parseChar c what cs = .error p ↔ Stops (· == c) cs ∧ .expected what cs = p := by
  cases cs with
  | nil => simp [parseChar, stops_nil]
  | cons d cs =>
    by_cases h : d = c
    · simp [parseChar, Stops, h]
    · simp [parseChar, Stops, h]

lemma parseName_error {what : Expected} {cs : List Char} {p : Problem} :
    parseName what cs = .error p ↔ Stops isNameChar cs ∧ .expected what cs = p := by
  have hnil : cs.takeWhile isNameChar = [] ↔ Stops isNameChar cs := by
    cases cs with
    | nil => simp [stops_nil]
    | cons c cs => simp [Stops, List.takeWhile_cons]
  unfold parseName
  split
  · rename_i h
    simp [hnil.mp h]
  · rename_i h
    simp [mt hnil.mpr h]

lemma parseValue_error {cs : List Char} {p : Problem} :
    parseValue cs = .error p ↔ (Stops (· != ']') cs ∧ .expected .value cs = p) ∨
      ∃ q tail, isQuote q = true ∧ q ∉ tail ∧ cs = q :: tail ∧ .unterminated cs = p := by
  cases cs with
  | nil => simp [parseValue, stops_nil]
  | cons c cs =>
    by_cases hq : isQuote c = true
    · have hb : c ≠ ']' := by
        rintro rfl
        cases hq
      have hopen : cs.dropWhile (· != c) = [] ↔ c ∉ cs := by
        simp only [List.dropWhile_eq_nil_iff, bne_iff_ne, ne_eq]
        exact ⟨fun h hc => h c hc rfl, fun h d hd hdc => h (hdc ▸ hd)⟩
      rw [parseValue, if_pos hq]
      split
      · rename_i h
        simp [Stops, hb, hq, hopen.mp h]
      · rename_i h
        have hc : c ∈ cs := by
          by_contra hc
          simp [hopen.mpr hc] at h
        simp [Stops, hb, hc]
    · rw [parseValue, if_neg hq]
      by_cases hb : c = ']'
      · simp [Stops, hb, isQuote]
      · simp [Stops, hb, hq]

inductive FilterFault : List Char → Problem → Prop
  | atSign {rest} (h : Stops (· == '@') rest) : FilterFault rest (.expected .atSign rest)
  | name {rest} (h : Stops isNameChar rest) :
      FilterFault ('@' :: rest) (.expected .attributeName rest)
  | equals (n : Name) {rest} (hn : Stops isNameChar rest) (h : Stops (· == '=') rest) :
      FilterFault ('@' :: (n.chars ++ rest)) (.expected .equals rest)
  | value (n : Name) {rest} (h : Stops (· != ']') rest) :
      FilterFault ('@' :: (n.chars ++ '=' :: rest)) (.expected .value rest)
  | quote (n : Name) {q tail} (hq : isQuote q = true) (h : q ∉ tail) :
      FilterFault ('@' :: (n.chars ++ '=' :: q :: tail)) (.unterminated (q :: tail))
  | bracket (n : Name) (v : Value) {rest} (hv : v.Closed rest) (h : Stops (· == ']') rest) :
      FilterFault ('@' :: (n.chars ++ '=' :: (v.text ++ rest))) (.expected .closeBracket rest)

lemma parsePredicate_error {cs : List Char} {p : Problem} :
    parsePredicate cs = .error p ↔ FilterFault cs p := by
  constructor
  · intro h
    simp only [parsePredicate, error_of_bind, parseChar_error, parseChar_ok, parseName_error,
      parseValue_error, Prod.exists, pure_ne_error, and_false, exists_false, or_false] at h
    rcases h with ⟨h, rfl⟩ | ⟨_, rfl, ⟨h, rfl⟩ | ⟨_, _, hn, ⟨h, rfl⟩ | ⟨_, rfl, hv⟩⟩⟩
    · exact .atSign h
    · exact .name h
    · obtain ⟨n, rfl, -, hs⟩ := parseName_sound hn
      exact .equals n hs h
    · obtain ⟨n, rfl, -, -⟩ := parseName_sound hn
      rcases hv with (⟨h, rfl⟩ | ⟨q, tail, hq, h, rfl, rfl⟩) | ⟨_, _, hv, h, rfl⟩
      · exact .value n h
      · exact .quote n hq h
      · obtain ⟨v, rfl, -, hc⟩ := parseValue_sound hv
        exact .bracket n v hc h
  · intro h
    have named (n : Name) {rest : List Char} (hs : Stops isNameChar rest) :=
      parseName_complete .attributeName n hs
    simp only [parsePredicate, error_of_bind, parseChar_error, parseChar_ok, Prod.exists]
    cases h with
    | atSign h => exact .inl ⟨h, rfl⟩
    | name h => exact .inr ⟨_, rfl, .inl (parseName_error.mpr ⟨h, rfl⟩)⟩
    | equals n hn h => exact .inr ⟨_, rfl, .inr ⟨_, _, named n hn, .inl ⟨h, rfl⟩⟩⟩
    | value n h =>
      refine .inr ⟨_, rfl, .inr ⟨_, _, named n (stops_mark _ (by simp)), .inr ⟨_, rfl, .inl ?_⟩⟩⟩
      exact parseValue_error.mpr (.inl ⟨h, rfl⟩)
    | quote n hq h =>
      refine .inr ⟨_, rfl, .inr ⟨_, _, named n (stops_mark _ (by simp)), .inr ⟨_, rfl, .inl ?_⟩⟩⟩
      exact parseValue_error.mpr (.inr ⟨_, _, hq, h, rfl, rfl⟩)
    | bracket n v hv h =>
      refine .inr ⟨_, rfl, .inr ⟨_, _, named n (stops_mark _ (by simp)), .inr ⟨_, rfl, .inr ?_⟩⟩⟩
      exact ⟨_, _, parseValue_complete v hv, .inl ⟨h, rfl⟩⟩

lemma parsePredicates_fault {rounds : ℕ} {cs : List Char} {p : Problem}
    (h : parsePredicates rounds cs = .error p) :
    ∃ (fs : List Filter) (behind : List Char),
      cs = fs.flatMap Filter.text ++ '[' :: behind ∧ FilterFault behind p := by
  fun_induction parsePredicates rounds cs with
  | case1 rounds cs ih =>
    simp only [error_of_bind, Prod.exists, pure_ne_error, and_false, exists_false, or_false] at h
    rcases h with h | ⟨q, rest, hq, h⟩
    · exact ⟨[], cs, rfl, parsePredicate_error.mp h⟩
    · obtain ⟨f, hf, -⟩ := parsePredicate_sound hq
      obtain ⟨fs, behind, rfl, hfault⟩ := ih rest h
      exact ⟨f :: fs, behind, by simp [hf], hfault⟩
  | case2 => cases h

lemma FilterFault.parsePredicates {rounds : ℕ} {fs : List Filter} {behind : List Char}
    {p : Problem} (h : FilterFault behind p)
    (hr : (fs.flatMap Filter.text ++ '[' :: behind).length ≤ rounds) :
    parsePredicates rounds (fs.flatMap Filter.text ++ '[' :: behind) = .error p := by
  induction fs generalizing rounds with
  | nil =>
    simp only [List.flatMap_nil, List.nil_append, List.length_cons] at hr ⊢
    obtain ⟨rounds, rfl⟩ : ∃ k, rounds = k + 1 := ⟨rounds - 1, by omega⟩
    simp only [Query.parsePredicates, error_of_bind]
    exact .inl (parsePredicate_error.mpr h)
  | cons f fs ih =>
    obtain ⟨cs, hcs, hf⟩ := parsePredicate_complete f (fs.flatMap Filter.text ++ '[' :: behind)
    have hpos : 0 < f.text.length := by simp [Filter.text]
    rw [List.flatMap_cons, List.append_assoc] at hr ⊢
    rw [List.length_append] at hr
    obtain ⟨rounds, rfl⟩ : ∃ k, rounds = k + 1 := ⟨rounds - 1, by omega⟩
    rw [hcs]
    simp only [Query.parsePredicates, error_of_bind, Prod.exists]
    exact .inr ⟨_, _, hf, .inl (ih (by omega))⟩

/-! ### Faults of steps and of paths -/

inductive SegmentFault : List Char → Problem → Prop
  | slash {rest} (h : Stops (· == '/') rest) : SegmentFault rest (.expected .slash rest)
  | tag (deep : Bool) {rest} (hs : deep = false → Stops (· == '/') rest)
      (hd : Stops (· == '.') rest) (ha : Stops (· == '*') rest) (hn : Stops isNameChar rest) :
      SegmentFault (slashes deep ++ rest) (.expected .tag rest)
  | parent (rest) :
      SegmentFault ('/' :: '/' :: '.' :: '.' :: rest)
        (.invalidDescendant .parent ('.' :: '.' :: rest))
  | current {rest} (h : Stops (· == '.') rest) :
      SegmentFault ('/' :: '/' :: '.' :: rest) (.invalidDescendant .current ('.' :: rest))
  | filter (t : Target) (fs : List Filter) {behind p} (h : FilterFault behind p) :
      SegmentFault (t.text ++ (fs.flatMap Filter.text ++ '[' :: behind)) p

lemma Grammar.Target.closed_bracket (t : Target) (fs : List Filter) (behind : List Char) :
    t.Closed (fs.flatMap Filter.text ++ '[' :: behind) := by
  obtain ⟨tail, ht⟩ : ∃ tail, fs.flatMap Filter.text ++ '[' :: behind = '[' :: tail := by
    cases fs <;> exact ⟨_, rfl⟩
  rw [ht]
  exact Target.closed_of_stops (stops_mark _ (by simp)) (stops_cons rfl)

lemma parseTarget_fault {deep : Bool} {cs : List Char} {p : Problem}
    (hs : deep = false → Stops (· == '/') cs) (h : parseTarget deep cs = .error p) :
    SegmentFault (slashes deep ++ cs) p := by
  unfold parseTarget at h
  split at h
  · cases deep with
    | false => cases h
    | true =>
      obtain rfl := Except.error.inj h
      exact .parent _
  · rename_i hdots
    cases deep with
    | false => cases h
    | true =>
      obtain rfl := Except.error.inj h
      exact .current (stops_beq_iff.mpr fun tail ht => hdots tail ht)
  · rename_i hdots hdot
    dsimp only at h
    split at h
    · cases h
    · rename_i hstar
      simp only [error_of_bind, pure_ne_error, and_false, exists_false, or_false,
        parseName_error] at h
      obtain ⟨hn, rfl⟩ := h
      exact .tag deep hs (stops_beq_iff.mpr fun tail ht => hdot tail ht)
        (stops_beq_iff.mpr fun tail ht => hstar tail ht) hn

lemma parseTarget_tag (deep : Bool) {rest : List Char} (hd : Stops (· == '.') rest)
    (ha : Stops (· == '*') rest) (hn : Stops isNameChar rest) :
    parseTarget deep rest = .error (.expected .tag rest) := by
  rw [stops_beq_iff] at hd ha
  unfold parseTarget
  split
  · exact absurd rfl (hd _)
  · exact absurd rfl (hd _)
  · dsimp only
    split
    · exact absurd rfl (ha _)
    · simp only [error_of_bind]
      exact .inl (parseName_error.mpr ⟨hn, rfl⟩)

lemma parseTarget_deep_dot {rest : List Char} (h : Stops (· == '.') rest) :
    parseTarget true ('.' :: rest) = .error (.invalidDescendant .current ('.' :: rest)) := by
  rw [stops_beq_iff] at h
  unfold parseTarget
  split
  · rename_i tail ht
    exact absurd (List.cons.inj ht).2 (h tail)
  · rfl
  · rename_i hdot
    exact absurd rfl (hdot rest)

lemma parseBehind_fault {deep : Bool} {cs : List Char} {p : Problem}
    (hs : deep = false → Stops (· == '/') cs) (h : parseBehind deep cs = .error p) :
    SegmentFault (slashes deep ++ cs) p := by
  simp only [parseBehind, error_of_bind, Prod.exists, pure_ne_error, and_false, exists_false,
    or_false] at h
  rcases h with h | ⟨axis, test, rest, ht, h⟩
  · exact parseTarget_fault hs h
  · obtain ⟨t, htext, -⟩ := parseTarget_sound ht
    obtain ⟨fs, behind, rfl, hfault⟩ := parsePredicates_fault h
    rw [htext]
    exact .filter t fs hfault

lemma parseBehind_error {deep : Bool} {cs : List Char} {p : Problem}
    (h : parseTarget deep cs = .error p) : parseBehind deep cs = .error p := by
  rw [parseBehind, h]
  rfl

lemma parseStep_error {cs : List Char} {p : Problem} :
    parseStep cs = .error p ↔ SegmentFault cs p := by
  constructor
  · intro h
    simp only [parseStep, error_of_bind, parseChar_error, parseChar_ok] at h
    rcases h with ⟨h, rfl⟩ | ⟨tail, rfl, h⟩
    · exact .slash h
    · split at h
      · exact parseBehind_fault (by simp) h
      · rename_i hne
        exact parseBehind_fault (fun _ => stops_beq_iff.mpr fun rest hr => hne rest hr) h
  · intro h
    cases h with
    | slash h =>
      rw [parseStep, error_of_bind]
      exact .inl (parseChar_error.mpr ⟨h, rfl⟩)
    | tag deep hs hd ha hn =>
      have ht := parseBehind_error (parseTarget_tag deep hd ha hn)
      cases deep with
      | false => exact (parseStep_slash (hs rfl)).trans ht
      | true => exact ht
    | parent rest => rfl
    | current h => exact parseBehind_error (parseTarget_deep_dot h)
    | filter t fs h =>
      rw [parseStep_target t (t.closed_bracket fs _), error_of_bind]
      exact .inl (h.parsePredicates (Nat.le_refl _))

inductive PathFault : List Char → Problem → Prop
  | here {cs p} (hne : cs ≠ []) (h : SegmentFault cs p) : PathFault cs p
  | behind (g : Segment) {rest p} (hc : g.Closed rest) (h : PathFault rest p) :
      PathFault (g.text ++ rest) p

lemma PathFault.ne_nil {cs : List Char} {p : Problem} (h : PathFault cs p) : cs ≠ [] := by
  cases h with
  | here hne _ => exact hne
  | behind g hc h =>
    obtain ⟨tail, ht⟩ := g.opens
    simp [ht]

lemma parseSteps_error {rounds : ℕ} {cs : List Char} {p : Problem} (hr : cs.length ≤ rounds) :
    parseSteps rounds cs = .error p ↔ PathFault cs p := by
  constructor
  · intro h
    fun_induction parseSteps rounds cs with
    | case1 => cases h
    | case2 cs hne =>
      exact absurd (List.length_eq_zero_iff.mp (Nat.le_zero.mp hr)) hne
    | case3 rounds cs hne ih =>
      simp only [error_of_bind, Prod.exists, pure_ne_error, and_false, exists_false, or_false] at h
      rcases h with h | ⟨s, rest, hs, h⟩
      · exact .here hne (parseStep_error.mp h)
      · have hlt := parseStep_shorter hs
        obtain ⟨g, rfl, -, hc⟩ := parseStep_sound hs
        exact .behind g hc (ih rest (by omega) h)
  · intro h
    have next {rounds : ℕ} {cs : List Char} (hne : cs ≠ []) (hr : cs.length ≤ rounds) :
        ∃ k, rounds = k + 1 := by
      have hpos := List.length_pos_iff.mpr hne
      exact ⟨rounds - 1, by omega⟩
    induction h generalizing rounds with
    | here hne h =>
      obtain ⟨rounds, rfl⟩ := next hne hr
      rw [parseSteps, error_of_bind]
      · exact .inl (parseStep_error.mpr h)
      · exact hne
    | behind g hc h ih =>
      have hs := parseStep_complete g hc
      have hlt := parseStep_shorter hs
      obtain ⟨rounds, rfl⟩ := next (h.behind g hc).ne_nil hr
      rw [parseSteps, error_of_bind]
      · exact .inr ⟨_, hs, error_of_bind.mpr (.inl (ih (by omega)))⟩
      · exact (h.behind g hc).ne_nil

/-! ### What a fault points at -/

section Places

variable {α : Type}

/-- What stands before the place of a problem is the beginning of an item, and there is a fault
whatever stands behind the next character. -/
def Pinned (Fault : List Char → Problem → Prop) (text : α → List Char) (cs : List Char)
    (p : Problem) : Prop :=
  ∃ done, cs = done ++ p.rest ∧ (∃ a, done <+: text a) ∧
    ∀ c tail more, p.rest = c :: tail → ∃ p', Fault (done ++ c :: more) p'

/-- All of the text is the beginning of an item, and the place is that of a quote that is not
closed. -/
def Unclosed (text : α → List Char) (cs : List Char) (p : Problem) : Prop :=
  ∃ done q tail, cs = done ++ q :: tail ∧ p.rest = q :: tail ∧ isQuote q = true ∧ q ∉ tail ∧
    ∃ a, cs <+: text a

end Places

namespace Grammar

def Name.sample : Name := ⟨['_'], by simp, by simp [isNameChar]⟩

def Value.sample : Value := .quoted '"' [] rfl (by simp)

def Filter.sample : Filter := ⟨.sample, .sample⟩

def Segment.sample (deep : Bool) : Segment := ⟨.down deep none, []⟩

end Grammar

def Grammar.Filter.behind (f : Filter) : List Char :=
  '@' :: (f.name.chars ++ '=' :: (f.value.text ++ [']']))

lemma Grammar.Segment.prefix_filter (t : Target) (fs : List Filter) {f : Filter} {cs : List Char}
    (h : cs <+: f.behind) :
    t.text ++ (fs.flatMap Filter.text ++ '[' :: cs) <+: (⟨t, fs ++ [f]⟩ : Segment).text := by
  have htext : (⟨t, fs ++ [f]⟩ : Segment).text =
      t.text ++ (fs.flatMap Filter.text ++ '[' :: f.behind) := by
    simp [Segment.text, Filter.text, Filter.behind]
  rwa [htext, List.prefix_append_right_inj, List.prefix_append_right_inj, List.prefix_cons_inj]

lemma Grammar.Derivation.prefix_single {g : Segment} {cs : List Char} (h : cs <+: g.text) :
    cs <+: (⟨[g], by simp⟩ : Derivation).text := by
  simpa [Derivation.text] using h

lemma Grammar.Derivation.prefix_behind (g : Segment) {d : Derivation} {cs : List Char}
    (h : cs <+: d.text) : g.text ++ cs <+: (⟨g :: d.segments, by simp⟩ : Derivation).text := by
  rwa [Derivation.text, List.flatMap_cons, List.prefix_append_right_inj]

lemma FilterFault.pinned {cs : List Char} {p : Problem} (h : FilterFault cs p)
    (ho : p.isOpen = false) : Pinned FilterFault Filter.behind cs p := by
  cases h with
  | atSign h =>
    refine ⟨[], rfl, ⟨.sample, List.nil_prefix⟩, ?_⟩
    rintro c tail more rfl
    exact ⟨_, .atSign (h.congr rfl)⟩
  | name h =>
    refine ⟨['@'], rfl, ⟨.sample, ⟨_, rfl⟩⟩, ?_⟩
    rintro c tail more rfl
    exact ⟨_, .name (h.congr rfl)⟩
  | equals n hn h =>
    refine ⟨'@' :: n.chars, rfl, ⟨⟨n, .sample⟩, ⟨_, rfl⟩⟩, ?_⟩
    rintro c tail more rfl
    exact ⟨_, .equals n (hn.congr rfl) (h.congr rfl)⟩
  | value n h =>
    refine ⟨'@' :: (n.chars ++ ['=']), by simp [Problem.rest], ⟨⟨n, .sample⟩, ?_⟩, ?_⟩
    · exact ⟨Value.sample.text ++ [']'], by simp [Filter.behind]⟩
    · rintro c tail more rfl
      have hc : Stops (· != ']') (c :: more) := h.congr rfl
      exact ⟨_, by simpa using FilterFault.value n hc⟩
  | quote n hq h => cases ho
  | bracket n v hv h =>
    refine ⟨'@' :: (n.chars ++ '=' :: v.text), by simp [Problem.rest], ⟨⟨n, v⟩, ?_⟩, ?_⟩
    · exact ⟨[']'], by simp [Filter.behind]⟩
    · rintro c tail more rfl
      have hc : Stops (· == ']') (c :: more) := h.congr rfl
      have hv' : v.Closed (c :: more) := hv.congr rfl
      exact ⟨_, by simpa using FilterFault.bracket n v hv' hc⟩

lemma FilterFault.unclosed {cs : List Char} {p : Problem} (h : FilterFault cs p)
    (ho : p.isOpen = true) : Unclosed Filter.behind cs p := by
  cases h with
  | @quote n q tail hq h =>
    refine ⟨'@' :: (n.chars ++ ['=']), q, tail, by simp, rfl, hq, h,
      ⟨n, .quoted q tail hq h⟩, [q, ']'], ?_⟩
    simp [Filter.behind, Value.text]
  | _ => cases ho

lemma SegmentFault.pinned {cs : List Char} {p : Problem} (h : SegmentFault cs p)
    (ho : p.isOpen = false) : Pinned SegmentFault Segment.text cs p := by
  -- Behind two slashes a dot is refused with or without a second one.
  have dotted (more : List Char) : ∃ p, SegmentFault ('/' :: '/' :: '.' :: more) p := by
    by_cases h : Stops (· == '.') more
    · exact ⟨_, .current h⟩
    · rw [stops_beq_iff] at h
      push Not at h
      obtain ⟨rest, rfl⟩ := h
      exact ⟨_, .parent rest⟩
  cases h with
  | slash h =>
    refine ⟨[], rfl, ⟨.sample false, List.nil_prefix⟩, ?_⟩
    rintro c tail more rfl
    exact ⟨_, .slash (h.congr rfl)⟩
  | tag deep hs hd ha hn =>
    refine ⟨slashes deep, rfl, ⟨.sample deep, ['*'], by cases deep <;> rfl⟩, ?_⟩
    rintro c tail more rfl
    exact ⟨_, .tag deep (fun hf => (hs hf).congr rfl) (hd.congr rfl) (ha.congr rfl) (hn.congr rfl)⟩
  | parent rest =>
    refine ⟨['/', '/'], rfl, ⟨.sample true, ['*'], rfl⟩, ?_⟩
    rintro c tail more ⟨⟩
    exact dotted more
  | current h =>
    refine ⟨['/', '/'], rfl, ⟨.sample true, ['*'], rfl⟩, ?_⟩
    rintro c tail more ⟨⟩
    exact dotted more
  | filter t fs h =>
    obtain ⟨done, rfl, ⟨f, hf⟩, hfault⟩ := h.pinned ho
    refine ⟨t.text ++ (fs.flatMap Filter.text ++ '[' :: done), by simp,
      ⟨_, Segment.prefix_filter t fs hf⟩, ?_⟩
    intro c tail more hc
    obtain ⟨p', hp⟩ := hfault c tail more hc
    exact ⟨p', by simpa using SegmentFault.filter t fs hp⟩

lemma SegmentFault.unclosed {cs : List Char} {p : Problem} (h : SegmentFault cs p)
    (ho : p.isOpen = true) : Unclosed Segment.text cs p := by
  cases h with
  | filter t fs h =>
    obtain ⟨done, q, tail, rfl, hp, hq, hnot, f, hf⟩ := h.unclosed ho
    exact ⟨t.text ++ (fs.flatMap Filter.text ++ '[' :: done), q, tail, by simp, hp, hq, hnot,
      _, Segment.prefix_filter t fs hf⟩
  | _ => cases ho

lemma PathFault.pinned {cs : List Char} {p : Problem} (h : PathFault cs p)
    (ho : p.isOpen = false) : Pinned PathFault Derivation.text cs p := by
  induction h with
  | here hne h =>
    obtain ⟨done, hcs, ⟨g, hg⟩, hfault⟩ := h.pinned ho
    refine ⟨done, hcs, ⟨_, Derivation.prefix_single hg⟩, ?_⟩
    intro c tail more hc
    obtain ⟨p', hp⟩ := hfault c tail more hc
    exact ⟨p', .here (by simp) hp⟩
  | behind g hclosed h ih =>
    obtain ⟨done, rfl, ⟨d, hd⟩, hfault⟩ := ih ho
    refine ⟨g.text ++ done, by simp, ⟨_, Derivation.prefix_behind g hd⟩, ?_⟩
    intro c tail more hc
    obtain ⟨p', hp⟩ := hfault c tail more hc
    refine ⟨p', ?_⟩
    rw [List.append_assoc]
    -- The text behind the step begins as it did, so the step is closed as before.
    refine .behind g (hclosed.congr ?_) hp
    rw [hc, List.head?_append, List.head?_append]
    rfl

lemma PathFault.unclosed {cs : List Char} {p : Problem} (h : PathFault cs p)
    (ho : p.isOpen = true) : Unclosed Derivation.text cs p := by
  induction h with
  | here hne h =>
    obtain ⟨done, q, tail, hcs, hp, hq, hnot, g, hg⟩ := h.unclosed ho
    exact ⟨done, q, tail, hcs, hp, hq, hnot, _, Derivation.prefix_single hg⟩
  | behind g hclosed h ih =>
    obtain ⟨done, q, tail, rfl, hp, hq, hnot, d, hd⟩ := ih ho
    exact ⟨g.text ++ done, q, tail, by simp, hp, hq, hnot, _, Derivation.prefix_behind g hd⟩

/-! ### Offsets -/

lemma parse_eq_error_iff {s : String} {e : ParseError} :
    parse s = .error e ↔ (Text.isBlankText s = true ∧ .empty = e) ∨
      Text.isBlankText s = false ∧ ∃ p, PathFault s.toList p ∧ p.locate s = e := by
  have hsteps {p : Problem} : parseSteps s.length s.toList = .error p ↔ PathFault s.toList p :=
    parseSteps_error (Nat.le_of_eq String.length_toList)
  unfold parse
  split
  · rename_i hb
    simp [hb]
  · rename_i hb
    rw [Bool.not_eq_true] at hb
    split
    · rename_i steps hs
      simp only [hs, reduceCtorEq] at hsteps
      simp [hb, ← hsteps]
    · rename_i p hs
      simp only [hs, Except.error.injEq] at hsteps
      simp [hb, ← hsteps]

def Begins (cs : List Char) : Prop := ∃ more q, parse (String.ofList (cs ++ more)) = .ok q

lemma begins_of_derivation {cs : List Char} {d : Derivation} (h : cs <+: d.text) : Begins cs := by
  obtain ⟨more, hmore⟩ := h
  refine ⟨more, d.query, parse_eq_ok_iff.mpr ⟨d, ?_, rfl⟩⟩
  rw [String.toList_ofList, hmore]

lemma PathFault.not_begins {cs : List Char} (h : ∀ more, ∃ p, PathFault (cs ++ more) p) :
    ¬ Begins cs := by
  rintro ⟨more, q, hq⟩
  obtain ⟨d, hd, -⟩ := parse_eq_ok_iff.mp hq
  obtain ⟨p, hp⟩ := h more
  rw [String.toList_ofList] at hd
  have herror := (parseSteps_error (Nat.le_refl _)).mpr hp
  rw [← hd, Derivation.text, parseSteps_complete d.segments (Nat.le_refl _)] at herror
  cases herror

def ParseError.Points (s : String) : ParseError → Prop
  | .empty => ∀ c ∈ s.toList, Text.isBlank c = true
  | .expected _ k _ | .invalidDescendant _ k _ =>
    k ≤ s.length ∧ Begins (s.toList.take k) ∧ (k < s.length → ¬ Begins (s.toList.take (k + 1)))
  | .unterminated k _ =>
    Begins s.toList ∧ ∃ q, s.toList[k]? = some q ∧ isQuote q = true ∧ q ∉ s.toList.drop (k + 1)

lemma PathFault.points {s : String} {p : Problem} (h : PathFault s.toList p) :
    (p.locate s).Points s := by
  have offset {done rest : List Char} (hs : s.toList = done ++ rest) :
      s.length - rest.length = done.length := by
    rw [← String.length_toList, hs, List.length_append, Nat.add_sub_cancel]
  have pinned {done rest : List Char} (hs : s.toList = done ++ rest)
      (hbegins : ∃ d : Derivation, done <+: d.text)
      (hfault : ∀ c tail more, rest = c :: tail → ∃ p', PathFault (done ++ c :: more) p') :
      s.length - rest.length ≤ s.length ∧ Begins (s.toList.take (s.length - rest.length)) ∧
        (s.length - rest.length < s.length →
          ¬ Begins (s.toList.take (s.length - rest.length + 1))) := by
    obtain ⟨d, hd⟩ := hbegins
    refine ⟨Nat.sub_le _ _, ?_, fun hlt => ?_⟩
    · rw [offset hs, hs, List.take_left]
      exact begins_of_derivation hd
    · cases rest with
      | nil => simp at hlt
      | cons c tail =>
        apply PathFault.not_begins
        intro more
        rw [offset hs, hs, List.take_length_add_append]
        simpa using hfault c tail more rfl
  cases p with
  | unterminated rest =>
    obtain ⟨done, q, tail, hs, rfl, hq, hnot, d, hd⟩ := h.unclosed rfl
    refine ⟨begins_of_derivation hd, q, ?_, hq, ?_⟩
    · rw [offset hs, hs, List.getElem?_append_right (Nat.le_refl _), Nat.sub_self]
      rfl
    · rw [offset hs, hs, List.drop_length_add_append]
      exact hnot
  | expected what rest =>
    obtain ⟨done, hs, hbegins, hfault⟩ := h.pinned rfl
    exact pinned hs hbegins hfault
  | invalidDescendant step rest =>
    obtain ⟨done, hs, hbegins, hfault⟩ := h.pinned rfl
    exact pinned hs hbegins hfault

/-- A text that is refused is blank, or the error points at the first character with which it is
no beginning of a query any more, or at a quote that is not closed. -/
theorem parse_error_points :
    (∀ s, parse s = .error .empty ↔ ∀ c ∈ s.toList, Text.isBlank c = true) ∧
    ∀ s e, parse s = .error e → e.Points s := by
  have blank (s : String) : Text.isBlankText s = true ↔ ∀ c ∈ s.toList, Text.isBlank c = true :=
    List.all_eq_true
  have located (p : Problem) (s : String) : p.locate s ≠ .empty := by
    cases p <;> simp [Problem.locate]
  refine ⟨fun s => ?_, fun s e h => ?_⟩
  · rw [parse_eq_error_iff, ← blank]
    simp [located]
  · rcases parse_eq_error_iff.mp h with ⟨hb, rfl⟩ | ⟨-, p, hp, rfl⟩
    · exact (blank s).mp hb
    · exact hp.points

/-- A second slash before two dots, and a quote that is not closed. -/
theorem parse_error_points_marked :
    (parse "//a/..[@k='x']//.." = .error (.invalidDescendant .parent 16 "//a/..[@k='x']//..") ∧
      (ParseError.invalidDescendant .parent 16 "//a/..[@k='x']//..").Points
        "//a/..[@k='x']//..") ∧
    parse "/a[@k='it" = .error (.unterminated 6 "/a[@k='it") ∧
      (ParseError.unterminated 6 "/a[@k='it").Points "/a[@k='it" := by
  have hdots : parse "//a/..[@k='x']//.." =
      .error (.invalidDescendant .parent 16 "//a/..[@k='x']//..") := by decide +kernel
  have hquote : parse "/a[@k='it" = .error (.unterminated 6 "/a[@k='it") := by decide +kernel
  exact ⟨⟨hdots, parse_error_points.2 _ _ hdots⟩, hquote, parse_error_points.2 _ _ hquote⟩

end SettingCatalog.Query
