import Mathlib.Data.List.Basic
import SettingCatalog.Query.Parser

/-! The grammar of path expressions. A derivation is a tree whose nodes carry the conditions of
their rules; it has a text and it means a query. The text of a derivation determines it. -/

namespace SettingCatalog.Query.Grammar

@[ext] structure Name where
  chars : List Char
  nonempty : chars ≠ []
  named : ∀ c ∈ chars, isNameChar c = true

/-- What stands between two quotes of one kind, or what stands bare before a bracket. -/
inductive Value where
  | quoted (quote : Char) (chars : List Char) (opens : isQuote quote = true)
      (closed : quote ∉ chars)
  | bare (chars : List Char) (nonempty : chars ≠ [])
      (unquoted : ∀ c ∈ chars.head?, isQuote c = false) (closed : ']' ∉ chars)

@[ext] structure Filter where
  name : Name
  value : Value

/-- Where a step goes. Without a name it goes to nodes of any tag. -/
inductive Target where
  | parent
  | current
  | down (deep : Bool) (name? : Option Name)

@[ext] structure Segment where
  target : Target
  filters : List Filter

@[ext] structure Derivation where
  segments : List Segment
  nonempty : segments ≠ []

/-! ### Texts and meanings -/

def Name.spelled (n : Name) : String := String.ofList n.chars

def Value.text : Value → List Char
  | quoted quote chars _ _ => quote :: (chars ++ [quote])
  | bare chars _ _ _ => chars

def Value.chars : Value → List Char
  | quoted _ chars _ _ => chars
  | bare chars _ _ _ => chars

def Value.spelled (v : Value) : String := String.ofList v.chars

def Filter.text (f : Filter) : List Char :=
  '[' :: '@' :: (f.name.chars ++ '=' :: (f.value.text ++ [']']))

def Filter.predicate (f : Filter) : Predicate := .ofName f.name.spelled f.value.spelled

def testText : Option Name → List Char
  | none => ['*']
  | some n => n.chars

def Target.text : Target → List Char
  | parent => ['/', '.', '.']
  | current => ['/', '.']
  | down false name? => '/' :: testText name?
  | down true name? => '/' :: '/' :: testText name?

def Target.axis : Target → Axis
  | parent => .parent
  | current => .current
  | down false _ => .child
  | down true _ => .descendant

def Target.test : Target → Test
  | down _ (some n) => .tag n.spelled
  | _ => .any

def Segment.text (s : Segment) : List Char := s.target.text ++ s.filters.flatMap Filter.text

def Segment.step (s : Segment) : Step :=
  ⟨s.target.axis, s.target.test, s.filters.map Filter.predicate⟩

def Derivation.text (d : Derivation) : List Char := d.segments.flatMap Segment.text

def Derivation.query (d : Derivation) : Query := ⟨d.segments.map Segment.step⟩

/-! ### Where a run of characters ends -/

def Stops (p : Char → Bool) (rest : List Char) : Prop := ∀ c ∈ rest.head?, p c = false

lemma stops_nil (p : Char → Bool) : Stops p [] := by simp [Stops]

lemma stops_cons {p : Char → Bool} {c : Char} {rest : List Char} (h : p c = false) :
    Stops p (c :: rest) := by
  intro d hd
  obtain rfl : c = d := by simpa using hd
  exact h

lemma stops_beq_iff {c : Char} {rest : List Char} :
    Stops (· == c) rest ↔ ∀ tail, rest ≠ c :: tail := by
  cases rest <;> simp [Stops]

lemma Stops.congr {p : Char → Bool} {rest rest' : List Char} (h : Stops p rest)
    (hh : rest'.head? = rest.head?) : Stops p rest' := by
  rwa [Stops, hh]

section Runs

variable {p : Char → Bool} {run run' rest rest' : List Char}

lemma takeWhile_run (h : ∀ c ∈ run, p c = true) (hs : Stops p rest) :
    (run ++ rest).takeWhile p = run := by
  rw [List.takeWhile_append_of_pos h]
  cases rest with
  | nil => simp
  | cons c rest => simp [hs c rfl]

lemma dropWhile_run (h : ∀ c ∈ run, p c = true) (hs : Stops p rest) :
    (run ++ rest).dropWhile p = rest := by
  rw [List.dropWhile_append_of_pos h]
  cases rest with
  | nil => simp
  | cons c rest => simp [hs c rfl]

lemma run_unique (h : ∀ c ∈ run, p c = true) (hs : Stops p rest) (h' : ∀ c ∈ run', p c = true)
    (hs' : Stops p rest') (he : run ++ rest = run' ++ rest') : run = run' ∧ rest = rest' := by
  constructor
  · rw [← takeWhile_run h hs, he, takeWhile_run h' hs']
  · rw [← dropWhile_run h hs, he, dropWhile_run h' hs']

end Runs

lemma forall_bne {c : Char} {cs : List Char} (h : c ∉ cs) : ∀ d ∈ cs, (d != c) = true := by
  intro d hd
  rw [bne_iff_ne]
  rintro rfl
  exact h hd

lemma closed_unique {c : Char} {cs ds u v : List Char} (hc : c ∉ cs) (hd : c ∉ ds)
    (h : cs ++ c :: u = ds ++ c :: v) : cs = ds ∧ u = v := by
  obtain ⟨rfl, hrest⟩ := run_unique (forall_bne hc) (stops_cons (by simp)) (forall_bne hd)
    (stops_cons (by simp)) h
  exact ⟨rfl, (List.cons.inj hrest).2⟩

lemma ne_of_isNameChar {c d : Char} (hc : isNameChar c = true) (hd : isNameChar d = false) :
    c ≠ d := by
  rintro rfl
  rw [hc] at hd
  cases hd

lemma not_isNameChar_mark : ∀ c ∈ ['/', '.', '*', '[', '=', ']'], isNameChar c = false := by
  simp only [List.forall_mem_cons, List.not_mem_nil, false_imp_iff, implies_true, and_true]
  decide +kernel

/-! ### What does not go on with a part -/

def Value.Closed : Value → List Char → Prop
  | quoted _ _ _ _, _ => True
  | bare _ _ _ _, rest => Stops (· != ']') rest

lemma Value.closed_bracket (v : Value) (rest : List Char) : v.Closed (']' :: rest) := by
  cases v with
  | quoted => trivial
  | bare => exact stops_cons (by simp)

lemma Value.Closed.congr {v : Value} {rest rest' : List Char} (h : v.Closed rest)
    (hh : rest'.head? = rest.head?) : v.Closed rest' := by
  cases v with
  | quoted => trivial
  | bare => exact Stops.congr h hh

def Target.Closed : Target → List Char → Prop
  | current, rest => Stops (· == '.') rest
  | down _ (some _), rest => Stops isNameChar rest
  | _, _ => True

lemma Target.Closed.congr {t : Target} {rest rest' : List Char} (h : t.Closed rest)
    (hh : rest'.head? = rest.head?) : t.Closed rest' := by
  rcases t with _ | _ | ⟨deep, _ | n⟩
  · trivial
  · exact Stops.congr h hh
  · trivial
  · exact Stops.congr h hh

def Segment.Closed (s : Segment) (rest : List Char) : Prop :=
  Stops (· == '[') rest ∧ s.target.Closed (s.filters.flatMap Filter.text ++ rest)

lemma Segment.Closed.congr {s : Segment} {rest rest' : List Char} (h : s.Closed rest)
    (hh : rest'.head? = rest.head?) : s.Closed rest' :=
  ⟨h.1.congr hh, h.2.congr (by rw [List.head?_append, List.head?_append, hh])⟩

/-! ### A text has one derivation -/

lemma Name.unique {n n' : Name} {rest rest' : List Char} (hs : Stops isNameChar rest)
    (hs' : Stops isNameChar rest') (h : n.chars ++ rest = n'.chars ++ rest') :
    n = n' ∧ rest = rest' := by
  obtain ⟨hc, hr⟩ := run_unique n.named hs n'.named hs' h
  exact ⟨Name.ext hc, hr⟩

lemma Name.head_named (n : Name) : ∃ c cs, n.chars = c :: cs ∧ isNameChar c = true := by
  obtain ⟨c, cs, hc⟩ := List.exists_cons_of_ne_nil n.nonempty
  exact ⟨c, cs, hc, n.named c (by simp [hc])⟩

lemma Value.unique {v v' : Value} {rest rest' : List Char}
    (h : v.text ++ ']' :: rest = v'.text ++ ']' :: rest') : v = v' ∧ rest = rest' := by
  -- The first character tells a quoted value from a bare one.
  have mixed {q : Char} {cs ds u u' : List Char} (hq : isQuote q = true) (hd : ds ≠ [])
      (hu : ∀ c ∈ ds.head?, isQuote c = false) (he : q :: cs ++ u = ds ++ u') : False := by
    obtain ⟨d, ds, rfl⟩ := List.exists_cons_of_ne_nil hd
    obtain rfl : q = d := (List.cons.inj he).1
    rw [hu q rfl] at hq
    cases hq
  cases v with
  | quoted q cs hq hc =>
    cases v' with
    | quoted q' cs' hq' hc' =>
      simp only [text, List.cons_append, List.append_assoc, List.nil_append, List.cons.injEq] at h
      obtain ⟨rfl, h⟩ := h
      obtain ⟨rfl, hr⟩ := closed_unique hc hc' h
      exact ⟨rfl, (List.cons.inj hr).2⟩
    | bare cs' hn' hu' hc' => exact (mixed hq hn' hu' h).elim
  | bare cs hn hu hc =>
    cases v' with
    | quoted q' cs' hq' hc' => exact (mixed hq' hn hu h.symm).elim
    | bare cs' hn' hu' hc' =>
      obtain ⟨rfl, rfl⟩ := closed_unique hc hc' h
      exact ⟨rfl, rfl⟩

lemma stops_mark {c : Char} (rest : List Char) (h : c ∈ ['/', '.', '*', '[', '=', ']']) :
    Stops isNameChar (c :: rest) :=
  stops_cons (not_isNameChar_mark c h)

lemma Filter.unique {f f' : Filter} {rest rest' : List Char}
    (h : f.text ++ rest = f'.text ++ rest') : f = f' ∧ rest = rest' := by
  simp only [text, List.cons_append, List.append_assoc, List.nil_append, List.cons.injEq,
    true_and] at h
  obtain ⟨hn, h⟩ := Name.unique (stops_mark _ (by simp)) (stops_mark _ (by simp)) h
  simp only [List.cons.injEq, true_and] at h
  obtain ⟨hv, hr⟩ := Value.unique h
  exact ⟨Filter.ext hn hv, hr⟩

/-- Lists of items are as unique as their items, if all items open with the same character and what
stands behind the list does not. -/
lemma items_unique {α : Type} {text : α → List Char} {mark : Char} (P : List Char → Prop)
    (opens : ∀ a, ∃ tail, text a = mark :: tail)
    (ends : ∀ as rest, P rest → P (List.flatMap text as ++ rest))
    (unique : ∀ {a a' : α} {rest rest' : List Char}, P rest → P rest' →
      text a ++ rest = text a' ++ rest' → a = a' ∧ rest = rest')
    {as as' : List α} {rest rest' : List Char} (hr : P rest) (hr' : P rest')
    (hs : Stops (· == mark) rest) (hs' : Stops (· == mark) rest')
    (h : as.flatMap text ++ rest = as'.flatMap text ++ rest') : as = as' ∧ rest = rest' := by
  have left_over {a : α} {u v : List Char} (hv : Stops (· == mark) v) (he : v = text a ++ u) :
      False := by
    obtain ⟨tail, ht⟩ := opens a
    rw [he, ht] at hv
    simpa using hv mark rfl
  induction as generalizing as' with
  | nil =>
    cases as' with
    | nil => exact ⟨rfl, h⟩
    | cons a' as' =>
      rw [List.flatMap_cons, List.append_assoc] at h
      exact (left_over hs h).elim
  | cons a as ih =>
    cases as' with
    | nil =>
      rw [List.flatMap_cons, List.append_assoc] at h
      exact (left_over hs' h.symm).elim
    | cons a' as' =>
      simp only [List.flatMap_cons, List.append_assoc] at h
      obtain ⟨rfl, ht⟩ := unique (ends as rest hr) (ends as' rest' hr') h
      obtain ⟨rfl, hrest⟩ := ih ht
      exact ⟨rfl, hrest⟩

lemma filters_unique {fs fs' : List Filter} {rest rest' : List Char}
    (hs : Stops (· == '[') rest) (hs' : Stops (· == '[') rest')
    (h : fs.flatMap Filter.text ++ rest = fs'.flatMap Filter.text ++ rest') :
    fs = fs' ∧ rest = rest' :=
  items_unique (fun _ => True) (fun _ => ⟨_, rfl⟩) (fun _ _ _ => trivial)
    (fun _ _ => Filter.unique) trivial trivial hs hs' h

def Ends (rest : List Char) : Prop := ∀ c ∈ rest.head?, c = '/'

lemma ends_nil : Ends [] := by simp [Ends]

lemma Target.opens (t : Target) : ∃ tail, t.text = '/' :: tail := by
  rcases t with _ | _ | ⟨_ | _, name?⟩ <;> exact ⟨_, rfl⟩

lemma Segment.opens (s : Segment) : ∃ tail, s.text = '/' :: tail := by
  obtain ⟨tail, ht⟩ := s.target.opens
  exact ⟨tail ++ s.filters.flatMap Filter.text, by rw [text, ht, List.cons_append]⟩

lemma ends_segments (ss : List Segment) (rest : List Char) (h : Ends rest) :
    Ends (ss.flatMap Segment.text ++ rest) := by
  cases ss with
  | nil => exact h
  | cons s ss =>
    obtain ⟨tail, ht⟩ := s.opens
    intro c hc
    rw [List.flatMap_cons, ht] at hc
    simpa using hc.symm

lemma stops_filters {p : Char → Bool} {rest : List Char} (fs : List Filter) (h : Ends rest)
    (hb : p '[' = false) (hp : p '/' = false) : Stops p (fs.flatMap Filter.text ++ rest) := by
  cases fs with
  | nil =>
    intro c hc
    rw [h c hc, hp]
  | cons f fs => exact stops_cons hb

lemma Target.closed_of_stops {t : Target} {rest : List Char} (hn : Stops isNameChar rest)
    (hd : Stops (· == '.') rest) : t.Closed rest := by
  rcases t with _ | _ | ⟨deep, _ | n⟩
  · trivial
  · exact hd
  · trivial
  · exact hn

lemma Target.closed_filters (t : Target) (fs : List Filter) {rest : List Char} (h : Ends rest) :
    t.Closed (fs.flatMap Filter.text ++ rest) :=
  closed_of_stops (stops_filters fs h (not_isNameChar_mark _ (by simp))
    (not_isNameChar_mark _ (by simp))) (stops_filters fs h rfl rfl)

lemma Ends.stops {p : Char → Bool} {rest : List Char} (h : Ends rest) (hp : p '/' = false) :
    Stops p rest := by
  intro c hc
  rw [h c hc, hp]

lemma Ends.closed (s : Segment) {rest : List Char} (h : Ends rest) : s.Closed rest :=
  ⟨h.stops rfl, s.target.closed_filters s.filters h⟩

lemma head_testText (name? : Option Name) :
    ∃ c cs, testText name? = c :: cs ∧ c ≠ '/' ∧ c ≠ '.' := by
  cases name? with
  | none => exact ⟨'*', [], rfl, by decide, by decide⟩
  | some n =>
    obtain ⟨c, cs, hc, hn⟩ := n.head_named
    exact ⟨c, cs, hc, ne_of_isNameChar hn (not_isNameChar_mark _ (by simp)),
      ne_of_isNameChar hn (not_isNameChar_mark _ (by simp))⟩

lemma Name.not_star (n : Name) {u v : List Char} : '*' :: u ≠ n.chars ++ v := by
  intro h
  obtain ⟨c, cs, hc, hn⟩ := n.head_named
  rw [hc] at h
  exact ne_of_isNameChar hn (not_isNameChar_mark '*' (by simp)) (List.cons.inj h).1.symm

lemma testText_unique {name? name?' : Option Name} {rest rest' : List Char}
    (hs : Stops isNameChar rest) (hs' : Stops isNameChar rest')
    (h : testText name? ++ rest = testText name?' ++ rest') : name? = name?' ∧ rest = rest' := by
  cases name? with
  | none =>
    cases name?' with
    | none => exact ⟨rfl, (List.cons.inj h).2⟩
    | some n' => exact absurd h n'.not_star
  | some n =>
    cases name?' with
    | none => exact absurd h.symm n.not_star
    | some n' =>
      obtain ⟨rfl, hr⟩ := Name.unique hs hs' h
      exact ⟨rfl, hr⟩

lemma Target.unique {t t' : Target} {rest rest' : List Char} (hn : Stops isNameChar rest)
    (hn' : Stops isNameChar rest') (hd : Stops (· == '.') rest) (hd' : Stops (· == '.') rest')
    (h : t.text ++ rest = t'.text ++ rest') : t = t' ∧ rest = rest' := by
  have dot {u v : List Char} (hv : Stops (· == '.') v) (he : v = '.' :: u) : False := by
    rw [he] at hv
    simpa using hv '.' rfl
  have clash {c : Char} {name? : Option Name} {u v : List Char} (hc : c = '/' ∨ c = '.')
      (he : c :: u = testText name? ++ v) : False := by
    obtain ⟨d, ds, hds, hs, hp⟩ := head_testText name?
    rw [hds] at he
    obtain rfl : c = d := (List.cons.inj he).1
    exact hc.elim hs hp
  have dotted {deep : Bool} {name? : Option Name} {u v : List Char}
      (he : '/' :: '.' :: u = (down deep name?).text ++ v) : False := by
    cases deep with
    | false => exact clash (.inr rfl) (List.cons.inj he).2
    | true => simp [text] at he
  cases t with
  | parent =>
    cases t' with
    | parent => exact ⟨rfl, by simpa [text] using h⟩
    | current => exact (dot hd' (by simpa [text] using h.symm)).elim
    | down deep name? => exact (dotted h).elim
  | current =>
    cases t' with
    | parent => exact (dot hd (by simpa [text] using h)).elim
    | current => exact ⟨rfl, by simpa [text] using h⟩
    | down deep name? => exact (dotted h).elim
  | down deep name? =>
    cases t' with
    | parent => exact (dotted h.symm).elim
    | current => exact (dotted h.symm).elim
    | down deep' name?' =>
      cases deep <;> cases deep' <;> simp only [text, List.cons_append, List.cons.injEq,
        true_and] at h
      · obtain ⟨rfl, hr⟩ := testText_unique hn hn' h
        exact ⟨rfl, hr⟩
      · exact (clash (.inl rfl) h.symm).elim
      · exact (clash (.inl rfl) h).elim
      · obtain ⟨rfl, hr⟩ := testText_unique hn hn' h
        exact ⟨rfl, hr⟩

lemma Segment.unique {s s' : Segment} {rest rest' : List Char} (hr : Ends rest)
    (hr' : Ends rest') (h : s.text ++ rest = s'.text ++ rest') : s = s' ∧ rest = rest' := by
  have bracket := not_isNameChar_mark '[' (by simp)
  have slash := not_isNameChar_mark '/' (by simp)
  simp only [text, List.append_assoc] at h
  obtain ⟨ht, h⟩ := Target.unique (stops_filters s.filters hr bracket slash)
    (stops_filters s'.filters hr' bracket slash) (stops_filters s.filters hr rfl rfl)
    (stops_filters s'.filters hr' rfl rfl) h
  obtain ⟨hf, hrest⟩ := filters_unique (hr.stops rfl) (hr'.stops rfl) h
  exact ⟨Segment.ext ht hf, hrest⟩

theorem Derivation.unique {d e : Derivation} (h : d.text = e.text) : d = e := by
  have ho : Stops (· == '/') ([] : List Char) := stops_nil _
  obtain ⟨hs, -⟩ := items_unique Ends Segment.opens ends_segments Segment.unique ends_nil ends_nil
    ho ho (by simpa [text] using h)
  exact Derivation.ext hs

end SettingCatalog.Query.Grammar
