import SettingCatalog.Proofs.Json.Containers

/-! Texts that go on. A reading is kept when more bytes follow what it left; only a number at the
very end of a text may go on with them. -/

namespace SettingCatalog.Json

variable {α β γ δ σ κ ι : Type}

/-! ### Readings side by side -/

/-- What `x` gives, the reading `y` of the text with `q` behind it gives too, and `q` stands behind
what is left. In any case `T` holds of what is left; `y` counts only where `G` holds of it. -/
def Kept (q : Bytes) (T G : Bytes → Prop) (R : α → β → Prop) (x : Except Fault (α × Bytes))
    (y : Except Fault (β × Bytes)) : Prop :=
  ∀ a rest, x = .ok (a, rest) → T rest ∧ ∃ b, R a b ∧ (G rest → y = .ok (b, rest ++ q))

def Anything (_ : Bytes) : Prop := True

def Something (rest : Bytes) : Prop := rest ≠ []

namespace Kept

variable {q : Bytes} {T T' G H : Bytes → Prop} {R : α → β → Prop} {S : γ → δ → Prop}
  {x x' : Except Fault (α × Bytes)} {y y' : Except Fault (β × Bytes)}

lemma error {fault : Fault} : Kept q T G R (.error fault) y := by
  intro a rest h
  cases h

lemma ok {a : α} {b : β} {rest : Bytes} (hT : T rest) (hR : R a b) :
    Kept q T G R (.ok (a, rest)) (.ok (b, rest ++ q)) := by
  rintro _ _ ⟨⟩
  exact ⟨hT, b, hR, fun _ => rfl⟩

lemma leaves (h : Kept q T G R x y) (hT : ∀ rest, T rest → T' rest) : Kept q T' G R x y := by
  intro a rest hx
  obtain ⟨ht, hy⟩ := h a rest hx
  exact ⟨hT rest ht, hy⟩

lemma weaken (h : Kept q T Anything R x y) : Kept q T G R x y := by
  intro a rest hx
  obtain ⟨ht, b, hb, hy⟩ := h a rest hx
  exact ⟨ht, b, hb, fun _ => hy trivial⟩

lemma ite {c : Prop} [Decidable c] (ht : c → Kept q T G R x y) (hf : ¬ c → Kept q T G R x' y') :
    Kept q T G R (if c then x else x') (if c then y else y') := by
  by_cases hc : c
  · rw [if_pos hc, if_pos hc]
    exact ht hc
  · rw [if_neg hc, if_neg hc]
    exact hf hc

lemma bind {f : α × Bytes → Except Fault (γ × Bytes)} {g : β × Bytes → Except Fault (δ × Bytes)}
    (hx : Kept q T G R x y)
    (hf : ∀ a b rest, R a b → T rest → Kept q T' H S (f (a, rest)) (g (b, rest ++ q)))
    (hG : ∀ a rest c rest', f (a, rest) = .ok (c, rest') → H rest' → G rest) :
    Kept q T' H S (x >>= f) (y >>= g) := by
  intro c rest' h
  obtain ⟨⟨a, rest⟩, ha, hc⟩ := ok_of_bind.mp h
  obtain ⟨hT, b, hab, hy⟩ := hx a rest ha
  obtain ⟨hT', d, hcd, hd⟩ := hf a b rest hab hT c rest' hc
  refine ⟨hT', d, hcd, fun hr => ?_⟩
  rw [hy (hG a rest c rest' hc hr)]
  exact hd hr

lemma map {f : α → γ} {g : β → δ} (hx : Kept q T G R x y) (hfg : ∀ a b, R a b → S (f a) (g b)) :
    Kept q T G S (do let (a, rest) ← x; return (f a, rest))
      (do let (b, rest) ← y; return (g b, rest)) := by
  refine bind hx (fun a b rest hab hT => .ok hT (hfg a b hab)) ?_
  rintro a rest _ _ ⟨⟩ hr
  exact hr

lemma skipSpace {bs : Bytes} {f : UInt8 → Bytes → Except Fault (α × Bytes)}
    {g : UInt8 → Bytes → Except Fault (β × Bytes)}
    (h : ∀ b rest, b :: rest <:+ bs → Kept q T G R (f b rest) (g b (rest ++ q))) :
    Kept q T G R
      (match Json.skipSpace bs with
        | [] => .error .truncated
        | b :: rest => f b rest)
      (match Json.skipSpace (bs ++ q) with
        | [] => .error .truncated
        | b :: rest => g b rest) := by
  have hsuffix : Json.skipSpace bs <:+ bs := List.dropWhile_suffix isSpace
  have happend : Json.skipSpace (bs ++ q) = _ := List.dropWhile_append
  rw [happend, ← Json.skipSpace]
  cases hb : Json.skipSpace bs with
  | nil => exact .error
  | cons b rest => exact h b rest (hb ▸ hsuffix)

variable {rest bs : Bytes}

lemma within (h : Kept q (· <:+ rest) G R x y) (hs : rest <:+ bs) : Kept q (· <:+ bs) G R x y :=
  h.leaves fun _ hs' => hs'.trans hs

lemma behind {m : UInt8} (h : Kept q (m :: · <:+ rest) G R x y) (hs : rest <:+ bs) :
    Kept q (m :: · <:+ bs) G R x y :=
  h.leaves fun _ hs' => hs'.trans hs

end Kept

def Extends (q : Bytes) (G : Bytes → Prop) (r r' : Reader α) : Prop :=
  ∀ bs, Kept q (· <:+ bs) G Eq (r bs) (r' (bs ++ q))

variable {q : Bytes}

lemma Extends.something {r r' : Reader α} (h : Extends q Anything r r') :
    Extends q Something r r' :=
  fun bs => (h bs).weaken

lemma Extends.bind {r r' : Reader α} {f f' : α × Bytes → Except Fault (γ × Bytes)}
    (hr : Extends q Something r r')
    (hf : ∀ a, Extends q Something (fun rest => f (a, rest)) fun rest => f' (a, rest)) :
    Extends q Something (fun bs => r bs >>= f) fun bs => r' bs >>= f' := by
  intro bs
  refine .bind (hr bs) ?_ ?_
  · rintro a _ rest rfl hs
    exact (hf a rest).within hs
  · intro a rest c rest' h hne hnil
    have hs := (hf a rest c rest' h).1
    rw [hnil, List.suffix_nil] at hs
    exact hne hs

lemma Extends.map {G : Bytes → Prop} {r r' : Reader α} (h : Extends q G r r') (f : α → γ) :
    Extends q G (fun bs => do let (a, rest) ← r bs; return (f a, rest))
      (fun bs => do let (a, rest) ← r' bs; return (f a, rest)) :=
  fun bs => (h bs).map fun _ _ => congrArg f

lemma suffix_of_cons {b : UInt8} {rest bs : Bytes} (h : b :: rest <:+ bs) : rest <:+ bs :=
  (List.suffix_cons b rest).trans h

/-! ### Literals, strings and numbers -/

lemma literal_extends (letters : Bytes) :
    Extends q Anything (literal letters) (literal letters) := by
  induction letters with
  | nil => exact fun bs => .ok List.suffix_rfl rfl
  | cons e letters ih =>
    intro bs
    cases bs with
    | nil => exact .error
    | cons b rest =>
      exact .ite (fun _ => (ih rest).within (List.suffix_cons b rest)) fun _ => .error

lemma scan_append (q : Bytes) {scanned : List Piece} {bs rest : Bytes}
    (h : (scan scanned bs).2 = .ok rest) :
    rest <:+ bs ∧ scan scanned (bs ++ q) = ((scan scanned bs).1, .ok (rest ++ q)) := by
  fun_induction scan scanned bs with
  | case2 scanned b tail hq =>
    obtain rfl : b = Mark.quote := by simpa using hq
    cases h
    exact ⟨List.suffix_cons _ _, scan_quote scanned _⟩
  | case4 scanned b hq hb e hu h₁ h₂ h₃ h₄ tail n hn ih =>
    obtain rfl : b = Mark.backslash := by simpa using hb
    obtain rfl : e = Mark.lowerU := by simpa using hu
    obtain ⟨hs, heq⟩ := ih h
    refine ⟨hs.trans (List.suffix_append [_, _, _, _, _, _] tail), ?_⟩
    exact (scan_unit scanned (tail ++ q) hn).trans heq
  | case7 scanned b hq hb e tail hu c hc ih =>
    obtain rfl : b = Mark.backslash := by simpa using hb
    obtain ⟨hs, heq⟩ := ih h
    refine ⟨hs.trans (List.suffix_append [_, _] tail), ?_⟩
    exact (scan_letter scanned (tail ++ q) (by simpa using hu) hc).trans heq
  | case10 scanned b tail hq hb hc ih =>
    obtain ⟨hs, heq⟩ := ih h
    refine ⟨hs.trans (List.suffix_cons b tail), ?_⟩
    exact (scan_byte scanned (tail ++ q) (by simpa using hq) (by simpa using hb) hc).trans heq
  | _ => cases h

lemma stringTail_extends : Extends q Anything stringTail stringTail := by
  intro bs
  unfold stringTail
  cases hscan : scan [] bs with
  | mk pieces found =>
    cases found with
    | error fault =>
      dsimp only
      split <;> exact .error
    | ok rest =>
      have hok : (scan [] bs).2 = .ok rest := by rw [hscan]
      obtain ⟨hs, happend⟩ := scan_append q hok
      rw [happend, hscan]
      dsimp only
      cases assemble [] pieces with
      | error lone => exact .error
      | ok text =>
        dsimp only
        cases Text.Utf8.decode? text with
        | none => exact .error
        | some s => exact .ok hs rfl

lemma skipStringTail_extends : Extends q Anything skipStringTail skipStringTail := by
  intro bs
  unfold skipStringTail
  cases hscan : (scan [] bs).2 with
  | error fault => exact .error
  | ok rest =>
    obtain ⟨hs, happend⟩ := scan_append q hscan
    rw [happend]
    exact .ok hs rfl

lemma span_append {p : UInt8 → Bool} {bs : Bytes} (h : bs.dropWhile p ≠ []) (q : Bytes) :
    (bs ++ q).takeWhile p = bs.takeWhile p ∧ (bs ++ q).dropWhile p = bs.dropWhile p ++ q := by
  have hlength : (bs.takeWhile p).length ≠ bs.length := by
    have hsum := congrArg List.length (List.takeWhile_append_dropWhile (p := p) (l := bs))
    have hpos := List.length_pos_iff.mpr h
    rw [List.length_append] at hsum
    omega
  rw [List.takeWhile_append, if_neg hlength, List.dropWhile_append, if_neg (by simpa using h)]
  exact ⟨rfl, rfl⟩

lemma digits_extends (short : Fault) : Extends q Something (digits short) (digits short) := by
  intro bs
  cases bs with
  | nil => exact .error
  | cons b tail =>
    refine .ite (fun _ => ?_) fun _ => .error
    rintro _ _ ⟨⟩
    refine ⟨List.dropWhile_suffix isDigit, _, rfl, fun hne => ?_⟩
    obtain ⟨htake, hdrop⟩ := span_append hne q
    exact congrArg Except.ok (Prod.ext htake hdrop)

lemma kept_end {T : Bytes → Prop} {a : α} {y : Except Fault (α × Bytes)} (hT : T []) :
    Kept q T Something Eq (.ok (a, [])) y := by
  rintro _ _ ⟨⟩
  exact ⟨hT, a, rfl, fun hne => absurd rfl hne⟩

def splitSign : Bytes → Bool × Bytes
  | [] => (false, [])
  | s :: rest =>
    if s == Mark.minus then (true, rest)
    else if s == Mark.plus then (false, rest)
    else (false, s :: rest)

lemma splitSign_append {rest : Bytes} (h : rest ≠ []) (q : Bytes) :
    (splitSign rest).2 <:+ rest ∧
      splitSign (rest ++ q) = ((splitSign rest).1, (splitSign rest).2 ++ q) := by
  cases rest with
  | nil => exact absurd rfl h
  | cons s rest =>
    rw [List.cons_append, splitSign, splitSign]
    split
    · exact ⟨List.suffix_cons s rest, rfl⟩
    · split
      · exact ⟨List.suffix_cons s rest, rfl⟩
      · exact ⟨List.suffix_rfl, rfl⟩

lemma exponentPart_cons (short : Fault) (b : UInt8) (rest : Bytes) :
    exponentPart short (b :: rest) =
      if b == Mark.lowerE || b == Mark.upperE then do
        let (ds, rest') ← digits short (splitSign rest).2
        return (some ((splitSign rest).1, ds), rest')
      else .ok (none, b :: rest) := by
  cases rest <;> rfl

lemma exponentPart_extends (short : Fault) :
    Extends q Something (exponentPart short) (exponentPart short) := by
  intro bs
  cases bs with
  | nil => exact kept_end List.suffix_rfl
  | cons b rest =>
    rw [List.cons_append, exponentPart_cons, exponentPart_cons]
    refine .ite (fun _ => ?_) fun _ => .ok List.suffix_rfl rfl
    by_cases hne : rest = []
    · subst hne
      exact .error
    · obtain ⟨hs, happend⟩ := splitSign_append hne q
      rw [happend]
      have hdigits := (digits_extends (q := q) short).map fun ds => some ((splitSign rest).1, ds)
      exact (hdigits _).within (hs.trans (List.suffix_cons b rest))

lemma numeral_extends (short : Fault) : Extends q Something (numeral short) (numeral short) := by
  refine Extends.bind (digits_extends short) fun whole rest => ?_
  refine .ite (fun _ => .error) fun _ => ?_
  cases rest with
  | nil => exact kept_end List.suffix_rfl
  | cons b rest =>
    refine .ite (fun _ => ?_) fun _ => ?_
    · refine .within ?_ (List.suffix_cons b rest)
      refine Extends.bind (digits_extends short) (fun fraction => ?_) rest
      exact (exponentPart_extends short).map fun exponent => (⟨whole, fraction, exponent⟩ : Numeral)
    · exact (exponentPart_extends short).map (fun exponent => (⟨whole, [], exponent⟩ : Numeral)) _

lemma numberTail_extends (negative : Bool) :
    Extends q Something (numberTail negative) (numberTail negative) := by
  refine Extends.bind (numeral_extends .truncated) fun n rest => ?_
  dsimp only
  cases n.number? negative with
  | none => exact .error
  | some x => exact .ok List.suffix_rfl rfl

/-! ### Values -/

lemma kept_wrongKind {T G : Bytes → Prop} {R : α → β → Prop} {wanted : Wanted} {bs : Bytes}
    {y : Except Fault (β × Bytes)} : Kept q T G R (wrongKind wanted bs) y :=
  fun a rest h => absurd h (wrongKind_ne_ok wanted bs (a, rest))

lemma text_extends : Extends q Anything text text := by
  intro bs
  refine .skipSpace fun b rest hs => .ite (fun _ => ?_) fun _ => kept_wrongKind
  exact (stringTail_extends rest).within (suffix_of_cons hs)

lemma word_extends : Extends q Something word word := by
  have hnumber (negative : Bool) : Extends q Something
      (fun bs => numberTail negative bs >>= fun x => return (← wordOf x.1, x.2))
      (fun bs => numberTail negative bs >>= fun x => return (← wordOf x.1, x.2)) := by
    refine Extends.bind (numberTail_extends negative) fun n rest => ?_
    dsimp only
    cases wordOf n with
    | error fault => exact .error
    | ok w => exact .ok List.suffix_rfl rfl
  intro bs
  refine .skipSpace fun b rest hs => .ite (fun _ => ?_) fun _ => .ite (fun _ => ?_) fun _ => ?_
  · exact (hnumber true rest).within (suffix_of_cons hs)
  · exact (hnumber false (b :: rest)).within hs
  · exact kept_wrongKind

lemma nullable_extends {G : Bytes → Prop} {r r' : Reader α} (h : Extends q G r r') :
    Extends q G (nullable r) (nullable r') := by
  intro bs
  refine .skipSpace fun b rest hs => .ite (fun _ => ?_) fun _ => ?_
  · apply Kept.weaken
    exact ((literal_extends nullTail).map (fun _ => none) rest).within (suffix_of_cons hs)
  · exact (h.map some (b :: rest)).within hs

lemma nullableOr_extends {G : Bytes → Prop} {r r' : Reader α} (default : α)
    (h : Extends q G r r') : Extends q G (nullableOr default r) (nullableOr default r') :=
  (nullable_extends h).map (·.getD default)

/-! ### Loops -/

lemma items_nil (close : UInt8) (item : Stateful σ) (rounds : Bytes) (first : Bool) (s : σ) :
    items close item rounds first s [] = .error .truncated := by
  cases rounds <;> rfl

theorem items_kept {item item' : Stateful σ} (close : UInt8)
    (hitem : ∀ s, Extends q Something (item s) (item' s)) {rounds rounds' : Bytes}
    (hrounds : rounds.length ≤ rounds'.length) (first : Bool) (s : σ) (bs : Bytes) :
    Kept q (close :: · <:+ bs) Anything Eq (items close item rounds first s bs)
      (items close item' rounds' first s (bs ++ q)) := by
  induction rounds generalizing rounds' first s bs with
  | nil => exact .error
  | cons n rounds ih =>
    cases rounds' with
    | nil => simp at hrounds
    | cons n' rounds' =>
      have hnext (t : Bytes) (ht : t <:+ bs) : Kept q (close :: · <:+ bs) Anything Eq
          (do let (s, rest) ← item s t; items close item rounds false s rest)
          (do let (s, rest) ← item' s (t ++ q); items close item' rounds' false s rest) := by
        refine .bind (hitem s t) ?_ ?_
        · rintro s' _ rest rfl hs
          exact (ih (by simpa using hrounds) false s' rest).behind (hs.trans ht)
        · -- An item at the very end of the text does not count: the loop still wants a mark.
          rintro s' _ c rest' h - rfl
          dsimp only at h
          rw [items_nil] at h
          cases h
      refine .skipSpace fun b rest hs => .ite (fun hb => ?_) fun _ => .ite (fun _ => ?_) fun _ =>
        .ite (fun _ => ?_) fun _ => .error
      · obtain rfl : b = close := by simpa using hb
        exact .ok hs rfl
      · exact hnext (b :: rest) hs
      · exact hnext rest (suffix_of_cons hs)

theorem elements_kept {element element' : Stateful σ}
    (h : ∀ s, Extends q Something (element s) (element' s)) {rounds rounds' : Bytes}
    (hrounds : rounds.length ≤ rounds'.length) (first : Bool) (s : σ) (bs : Bytes) :
    Kept q (Mark.closeBracket :: · <:+ bs) Anything Eq (elements element rounds first s bs)
      (elements element' rounds' first s (bs ++ q)) := by
  rw [elements_eq_items, elements_eq_items]
  exact items_kept Mark.closeBracket h hrounds first s bs

lemma memberName_kept {R : κ → ι → Prop} {name : Reader κ} {name' : Reader ι}
    (h : ∀ bs, Kept q (· <:+ bs) Anything R (name bs) (name' (bs ++ q))) (bs : Bytes) :
    Kept q (· <:+ bs) Anything R (memberName name bs) (memberName name' (bs ++ q)) := by
  refine .skipSpace fun b rest hs => .ite (fun _ => ?_) fun _ => .error
  refine .bind (h rest) (fun k k' rest' hk hs' => ?_) fun _ _ _ _ _ _ => trivial
  refine .skipSpace fun c rest'' hs'' => .ite (fun _ => ?_) fun _ => .error
  exact .ok ((suffix_of_cons hs'').trans (hs'.trans (suffix_of_cons hs))) hk

theorem members_kept {R : κ → ι → Prop} {name : σ → Reader κ} {name' : σ → Reader ι}
    {member : κ → Stateful σ} {member' : ι → Stateful σ}
    (hname : ∀ s bs, Kept q (· <:+ bs) Anything R (name s bs) (name' s (bs ++ q)))
    (hmember : ∀ k k' s, R k k' → Extends q Something (member k s) (member' k' s))
    {rounds rounds' : Bytes} (hrounds : rounds.length ≤ rounds'.length) (first : Bool) (s : σ)
    (bs : Bytes) :
    Kept q (Mark.closeBrace :: · <:+ bs) Anything Eq (members name member rounds first s bs)
      (members name' member' rounds' first s (bs ++ q)) := by
  rw [members_eq_items, members_eq_items]
  refine items_kept Mark.closeBrace (fun s bs => ?_) hrounds first s bs
  refine .bind (memberName_kept (hname s) bs) (fun k k' rest hk hs => ?_) fun _ _ _ _ _ _ => trivial
  exact (hmember k k' s hk rest).within hs

lemma list_extends {r r' : Reader α} (h : Extends q Something r r') :
    Extends q Anything (list r) (list r') := by
  intro bs
  refine .skipSpace fun b rest hs => .ite (fun _ => ?_) fun _ => kept_wrongKind
  refine .map ?_ fun _ _ => congrArg List.reverse
  refine .leaves (elements_kept (fun found => h.map (· :: found)) (by simp) true [] rest)
    fun _ hs' => ?_
  exact (suffix_of_cons hs').trans (suffix_of_cons hs)

lemma dictionary_extends (put : String → String → σ → σ) (empty : σ) :
    Extends q Anything (dictionary put empty) (dictionary put empty) := by
  intro bs
  refine .skipSpace fun b rest hs => .ite (fun _ => ?_) fun _ => kept_wrongKind
  refine .leaves (members_kept (R := Eq) (fun _ => stringTail_extends) ?_ (by simp) true empty rest)
    fun _ hs' => (suffix_of_cons hs').trans (suffix_of_cons hs)
  rintro k _ s rfl
  exact (text_extends.map fun value => put k value s).something

theorem skipValue_extends {nesting nesting' : Bytes} (h : nesting.length ≤ nesting'.length) :
    Extends q Something (skipValue nesting) (skipValue nesting') := by
  induction nesting generalizing nesting' with
  | nil => exact fun bs => .error
  | cons n nesting ih =>
    cases nesting' with
    | nil => simp at h
    | cons n' nesting' =>
      intro bs
      have hnested : Extends q Something (skipValue nesting) (skipValue nesting') :=
        ih (by simpa using h)
      have hnumeral := (numeral_extends (q := q) .malformed).map fun _ => ()
      refine .skipSpace fun b rest hs => ?_
      have hliteral (letters : Bytes) :
          Kept q (· <:+ bs) Something Eq (literal letters rest) (literal letters (rest ++ q)) :=
        ((literal_extends letters).something rest).within (suffix_of_cons hs)
      refine .ite (fun _ => hliteral _) fun _ => .ite (fun _ => hliteral _) fun _ =>
        .ite (fun _ => hliteral _) fun _ => .ite (fun _ => ?_) fun _ => .ite (fun _ => ?_) fun _ =>
        .ite (fun _ => ?_) fun _ => .ite (fun _ => ?_) fun _ => .ite (fun _ => ?_) fun _ => .error
      · exact (hnumeral rest).within (suffix_of_cons hs)
      · exact (hnumeral (b :: rest)).within hs
      · exact (skipStringTail_extends.something rest).within (suffix_of_cons hs)
      · refine .leaves (elements_kept (fun _ => hnested) (by simp) true () rest).weaken
          fun _ hs' => ?_
        exact (suffix_of_cons hs').trans (suffix_of_cons hs)
      · refine .leaves (members_kept (R := Eq) (fun _ => skipStringTail_extends)
          (fun _ _ _ _ => hnested) (by simp) true () rest).weaken fun _ hs' => ?_
        exact (suffix_of_cons hs').trans (suffix_of_cons hs)

/-! ### Records -/

/-- Fields that differ in how their values are read, and there one goes on where the other ends. -/
structure Alike (q : Bytes) (f f' : RecordField σ) : Prop where
  goesBy : f.goesBy = f'.goesBy
  filled : f.filled = f'.filled
  read : ∀ s, Extends q Something (f.read s) (f'.read s)
  optional : f.optional = f'.optional
  optionalLast : f.optionalLast = f'.optionalLast

namespace Alike

variable {value value' : Reader α} (h : Extends q Something value value') (name : String)
  (aliases : List String) (get : σ → Option α) (set : σ → α → σ)

include h

lemma required :
    Alike q (.required name aliases value get set) (.required name aliases value' get set) :=
  ⟨rfl, rfl, fun s => h.map (set s), rfl, rfl⟩

lemma elective :
    Alike q (.elective name aliases value get set) (.elective name aliases value' get set) :=
  ⟨rfl, rfl, fun s => h.map (set s), rfl, rfl⟩

lemma electiveMember :
    Alike q (.electiveMember name value get set) (.electiveMember name value' get set) :=
  ⟨rfl, rfl, fun s => h.map (set s), rfl, rfl⟩

end Alike

section Records

variable {r r' : Schema σ} {fields fields' : List (RecordField σ)}

lemma find?_alike {p p' : RecordField σ → Bool} (hp : ∀ f f', Alike q f f' → p f = p' f')
    (h : List.Forall₂ (Alike q) fields fields') :
    Option.Rel (Alike q) (fields.find? p) (fields'.find? p') := by
  induction h with
  | nil => exact .none
  | @cons f f' fields fields' hf _ ih =>
    rw [List.find?_cons, List.find?_cons, hp f f' hf]
    cases p' f' with
    | false => exact ih
    | true => exact .some hf

lemma fieldName_kept (h : List.Forall₂ (Alike q) r.fields r'.fields) (s : σ) (bs : Bytes) :
    Kept q (· <:+ bs) Anything (Option.Rel (Alike q)) (r.fieldName s bs)
      (r'.fieldName s (bs ++ q)) := by
  refine .bind (stringTail_extends bs) ?_ fun _ _ _ _ _ _ => trivial
  rintro name _ rest rfl hs
  dsimp only
  have hfind := find?_alike (fun f f' hf => congrFun hf.goesBy name) h
  revert hfind
  cases r.fields.find? (·.goesBy name) <;> cases r'.fields.find? (·.goesBy name) <;> rintro ⟨⟩
  · exact .ok hs .none
  · rename_i f f' hf
    dsimp only
    rw [hf.filled]
    exact .ite (fun _ => .error) fun _ => .ok hs (.some hf)

lemma member_extends {k k' : Option (RecordField σ)} (h : Option.Rel (Alike q) k k') (s : σ) :
    Extends q Something (Schema.member k s) (Schema.member k' s) := by
  cases h with
  | some hf => exact hf.read s
  | none => exact fun bs => (skipValue_extends (by simp) bs).map fun _ _ _ => rfl

lemma positions_nil (r : Schema σ) (fields : List (RecordField σ)) (index : ℕ) (first : Bool)
    (s : σ) : r.positions fields index first s [] = .error .truncated := by
  cases fields <;> rfl

theorem positions_kept (h : List.Forall₂ (Alike q) fields fields') (index : ℕ) (first : Bool)
    (s : σ) (bs : Bytes) :
    Kept q (Mark.closeBracket :: · <:+ bs) Anything Eq (r.positions fields index first s bs)
      (r'.positions fields' index first s (bs ++ q)) := by
  induction h generalizing index first s bs with
  | nil =>
    refine .skipSpace fun b rest hs => .ite (fun hb => ?_) fun _ => .error
    obtain rfl : b = Mark.closeBracket := by simpa using hb
    exact .ok hs rfl
  | @cons f f' fields fields' hf _ ih =>
    have hnext (t : Bytes) (ht : t <:+ bs) : Kept q (Mark.closeBracket :: · <:+ bs) Anything Eq
        (do let (s, rest) ← f.read s t; r.positions fields (index + 1) false s rest)
        (do let (s, rest) ← f'.read s (t ++ q); r'.positions fields' (index + 1) false s rest) := by
      refine .bind (hf.read s t) ?_ ?_
      · rintro s' _ rest rfl hs
        exact (ih (index + 1) false s' rest).behind (hs.trans ht)
      · rintro s' _ c rest' h - rfl
        dsimp only at h
        rw [positions_nil] at h
        cases h
    refine .skipSpace fun b rest hs => .ite (fun _ => ?_) fun _ => .ite (fun _ => ?_) fun _ =>
      .ite (fun _ => ?_) fun _ => .error
    · rw [hf.optionalLast]
      refine .ite (fun _ => ?_) fun _ => .error
      exact (ih (index + 1) first s (b :: rest)).behind hs
    · exact hnext (b :: rest) hs
    · exact hnext rest (suffix_of_cons hs)

def Closed (bs rest : Bytes) : Prop :=
  ∃ m ∈ [Mark.closeBracket, Mark.closeBrace], m :: rest <:+ bs

lemma Extends.of_closed {α : Type} {r r' : Reader α}
    (h : ∀ bs, Kept q (Closed bs) Anything Eq (r bs) (r' (bs ++ q))) : Extends q Anything r r' := by
  intro bs
  refine (h bs).leaves fun rest hc => ?_
  obtain ⟨m, -, hs⟩ := hc
  exact suffix_of_cons hs

theorem Schema.read_kept (h : List.Forall₂ (Alike q) r.fields r'.fields) (empty : σ) (bs : Bytes) :
    Kept q (Closed bs) Anything Eq (r.read empty bs) (r'.read empty (bs ++ q)) := by
  refine .skipSpace fun b rest hs => .ite (fun _ => ?_) fun _ => .ite (fun _ => ?_) fun _ =>
    kept_wrongKind
  · refine (positions_kept h 0 true empty rest).leaves fun _ hs' => ?_
    exact ⟨Mark.closeBracket, by simp, hs'.trans (suffix_of_cons hs)⟩
  · refine .bind (members_kept (fieldName_kept h) (fun _ _ s hk => member_extends hk s) (by simp)
      true empty rest) ?_ fun _ _ _ _ _ _ => trivial
    rintro s _ rest' rfl hs'
    dsimp only
    have hmissing : Option.Rel (Alike q) (r.missing? s) (r'.missing? s) :=
      find?_alike (fun f f' hf => by rw [hf.filled, hf.optional]) h
    revert hmissing
    cases r.missing? s <;> cases r'.missing? s <;> rintro ⟨⟩
    · exact .ok ⟨Mark.closeBrace, by simp, hs'.trans (suffix_of_cons hs)⟩ rfl
    · exact .error

end Records

/-! ### Whole texts -/

def Growing (read : ℕ → Reader α) : Prop :=
  ∀ q bs {n n' : ℕ}, n ≤ n' → Kept q (Closed bs) Anything Eq (read n bs) (read n' (bs ++ q))

lemma blank_iff {w : Bytes} : Blank w ↔ (skipSpace w).isEmpty = true := by
  rw [List.isEmpty_iff, skipSpace, List.dropWhile_eq_nil_iff]
  rfl

lemma whole_eq_ok {r : Reader α} {bs : Bytes} {a : α} :
    whole r bs = .ok a ↔ ∃ w, r bs = .ok (a, w) ∧ Blank w := by
  simp only [whole, ok_of_bind, Prod.exists, blank_iff]
  constructor
  · rintro ⟨a', w, hr, h⟩
    split at h
    · rename_i hw
      cases h
      exact ⟨w, hr, hw⟩
    · cases h
  · rintro ⟨w, hr, hw⟩
    exact ⟨a, w, hr, by rw [if_pos hw]; rfl⟩

/-- A text that holds a value has no beginning that does, up to the mark that closes the value. -/
theorem Growing.whole_cut {read : ℕ → Reader α} (h : Growing read) {bs : Bytes} {a : α}
    (ha : whole (read (bs.length + 1)) bs = .ok a) :
    ∃ v w m, m ∈ [Mark.closeBracket, Mark.closeBrace] ∧ bs = v ++ m :: w ∧ Blank w ∧
      ∀ p, p <+: bs → p.length ≤ v.length → ∀ a', whole (read (p.length + 1)) p ≠ .ok a' := by
  obtain ⟨w, hread, hw⟩ := whole_eq_ok.mp ha
  obtain ⟨m, hm, v, hv⟩ := (h [] bs (Nat.le_refl _) a w hread).1
  refine ⟨v, w, m, hm, hv.symm, hw, fun p hp hlen a' ha' => ?_⟩
  obtain ⟨q, rfl⟩ := hp
  obtain ⟨w', hread', -⟩ := whole_eq_ok.mp ha'
  have hle : p.length + 1 ≤ (p ++ q).length + 1 := by simp
  obtain ⟨-, b, -, hkept⟩ := h q p hle a' w' hread'
  have hrest : w = w' ++ q := by
    rw [hkept trivial] at hread
    simpa using (congrArg Prod.snd (Except.ok.inj hread)).symm
  -- The cut text would leave more behind than the whole one does.
  have hlength := congrArg List.length hv
  rw [hrest] at hlength
  simp only [List.length_append, List.length_cons] at hlength
  omega

end SettingCatalog.Json
