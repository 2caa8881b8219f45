import Mathlib.Data.List.Pairwise
import Mathlib.Data.Option.Basic
import SettingCatalog.Proofs.Json.Containers

/-! Records. An object gives each field at most once, under whichever of its names; an array gives
the fields by position. What a schema reads is said field by field, without regard to the order of
the members. -/

namespace SettingCatalog.Json

variable {σ : Type}

/-! ### Fields of a value -/

def valuesOf (names : List String) (ms : List (String × Value)) : List Value :=
  (ms.filter fun p => names.contains p.1).map Prod.snd

lemma valuesOf_cons_of_mem {names : List String} {k : String} (h : k ∈ names) (v : Value)
    (ms : List (String × Value)) : valuesOf names ((k, v) :: ms) = v :: valuesOf names ms := by
  simp [valuesOf, h]

lemma valuesOf_cons_of_not_mem {names : List String} {k : String} (h : k ∉ names) (v : Value)
    (ms : List (String × Value)) : valuesOf names ((k, v) :: ms) = valuesOf names ms := by
  simp [valuesOf, h]

/-- What a value gives for a field: in an object the only member that goes by one of the names, in
an array the element at the position. -/
def Given (v : Value) (position : ℕ) (names : List String) (o : Option Value) : Prop :=
  match v with
  | .object ms => valuesOf names ms = o.toList
  | .array vs => vs[position]? = o
  | _ => False

/-- An object, or an array with no more elements than a record has fields. -/
def Holds (count : ℕ) : Value → Prop
  | .object _ => True
  | .array vs => vs.length ≤ count
  | _ => False

/-! ### Slots -/

def RecordField.names (f : RecordField σ) : List String := f.name :: f.aliases

lemma RecordField.goesBy_iff {f : RecordField σ} {k : String} :
    f.goesBy k = true ↔ k ∈ f.names := by
  simp only [goesBy, names, Bool.or_eq_true, beq_iff_eq, List.contains_iff_mem, List.mem_cons]
  rw [eq_comm]

structure Slot (σ : Type) where
  field : RecordField σ
  content : Type
  get : σ → Option content
  set : σ → content → σ
  shape : Value → content → Prop
  filled_eq (s : σ) : field.filled s = (get s).isSome
  get_set (s : σ) (a : content) : get (set s a) = some a

namespace Slot

structure Independent (p q : Slot σ) : Prop where
  names : ∀ k ∈ p.field.names, k ∉ q.field.names
  get_set_left (s : σ) (a : p.content) : q.get (p.set s a) = q.get s
  get_set_right (s : σ) (a : q.content) : p.get (q.set s a) = p.get s

instance : Std.Symm (Independent (σ := σ)) where
  symm _ _ h := ⟨fun k hq hp => h.names k hp hq, h.get_set_right, h.get_set_left⟩

/-- The values of the field lead from what the draft held to what it holds. -/
def Collects (p : Slot σ) (o : Option p.content) (vs : List Value) (o' : Option p.content) : Prop :=
  vs = [] ∧ o' = o ∨ ∃ v a, vs = [v] ∧ o = none ∧ p.shape v a ∧ o' = some a

lemma collects_nil {p : Slot σ} {o o' : Option p.content} : p.Collects o [] o' ↔ o' = o := by
  simp [Collects]

lemma collects_cons {p : Slot σ} {o o' : Option p.content} {v : Value} {vs : List Value} :
    p.Collects o (v :: vs) o' ↔ o = none ∧ ∃ a, p.shape v a ∧ p.Collects (some a) vs o' := by
  constructor
  · rintro (⟨h, -⟩ | ⟨v', a, h, rfl, ha, rfl⟩)
    · simp at h
    · obtain ⟨rfl, rfl⟩ := List.cons.inj h
      exact ⟨rfl, a, ha, collects_nil.mpr rfl⟩
  · rintro ⟨rfl, a, ha, ⟨rfl, rfl⟩ | ⟨-, -, -, h, -⟩⟩
    · exact .inr ⟨v, a, rfl, rfl, ha, rfl⟩
    · simp at h

def Absorbs (slots : List (Slot σ)) (s : σ) (m : String × Value) (t : σ) : Prop :=
  (∃ p ∈ slots, m.1 ∈ p.field.names ∧ p.get s = none ∧ ∃ a, p.shape m.2 a ∧ t = p.set s a) ∨
    (∀ p ∈ slots, m.1 ∉ p.field.names) ∧ t = s

/-- Values fill the slots one after the other; those left may be ones that an array can lack. -/
def Fills : List (Slot σ) → σ → List Value → σ → Prop
  | [], s, vs, t => vs = [] ∧ t = s
  | p :: ps, s, [], t => p.field.optionalLast = true ∧ Fills ps s [] t
  | p :: ps, s, v :: vs, t => ∃ a, p.shape v a ∧ Fills ps (p.set s a) vs t

lemma fills_cons {p : Slot σ} {ps : List (Slot σ)} {s t : σ} {v : Value} {vs : List Value} :
    Fills (p :: ps) s (v :: vs) t ↔
      ∃ u, (∃ a, p.shape v a ∧ u = p.set s a) ∧ Fills ps u vs t := by
  constructor
  · rintro ⟨a, ha, ht⟩
    exact ⟨p.set s a, ⟨a, ha, rfl⟩, ht⟩
  · rintro ⟨-, ⟨a, ha, rfl⟩, ht⟩
    exact ⟨a, ha, ht⟩

def Reads (p : Slot σ) (bound : ℕ) : Prop :=
  ∀ s v n, Spells v n → n.length ≤ bound →
    ReadsAs (p.field.read s) (fun t => ∃ a, p.shape v a ∧ t = p.set s a) n

section Fields

variable {α : Type} (name : String) (aliases : List String) (value : Reader α) (get : σ → Option α)
  (set : σ → α → σ) (shape : Value → α → Prop) (get_set : ∀ s a, get (set s a) = some a)

def required : Slot σ :=
  ⟨.required name aliases value get set, α, get, set, shape, fun _ => rfl, get_set⟩

def elective : Slot σ :=
  ⟨.elective name aliases value get set, α, get, set, shape, fun _ => rfl, get_set⟩

def electiveMember : Slot σ :=
  ⟨.electiveMember name value get set, α, get, set, shape, fun _ => rfl, get_set⟩

@[simp] lemma required_names :
    (required name aliases value get set shape get_set).field.names = name :: aliases := rfl

@[simp] lemma elective_names :
    (elective name aliases value get set shape get_set).field.names = name :: aliases := rfl

@[simp] lemma electiveMember_names :
    (electiveMember name value get set shape get_set).field.names = [name] := rfl

variable {value shape} {bound : ℕ}
  (hvalue : ∀ v n, Spells v n → n.length ≤ bound → ReadsAs value (shape v) n)

include hvalue

lemma required_reads : (required name aliases value get set shape get_set).Reads bound :=
  fun s v n hv hn => (hvalue v n hv hn).map (set s)

lemma elective_reads : (elective name aliases value get set shape get_set).Reads bound :=
  fun s v n hv hn => (hvalue v n hv hn).map (set s)

lemma electiveMember_reads : (electiveMember name value get set shape get_set).Reads bound :=
  fun s v n hv hn => (hvalue v n hv hn).map (set s)

end Fields

variable {r : Schema σ} {bound : ℕ}

lemma positions_blank {w : Bytes} (hw : Blank w) (ps : List (Slot σ)) (index : ℕ) (first : Bool)
    (s s' : σ) (rest rest' : Bytes) :
    r.positions (ps.map field) index first s (w ++ Mark.closeBracket :: rest) = .ok (s', rest') ↔
      Fills ps s [] s' ∧ rest' = rest := by
  have hspace : isSpace Mark.closeBracket = false := rfl
  induction ps generalizing index w with
  | nil => simp [Schema.positions, skipSpace_blank hw hspace, Fills, eq_comm]
  | cons p ps ih =>
    rw [List.map_cons, Schema.positions, skipSpace_blank hw hspace]
    by_cases ho : p.field.optionalLast = true
    · simpa [ho, Fills] using ih Blank.nil (index + 1)
    · simp [ho, Fills]

lemma positions_followed {ps : List (Slot σ)} (hps : ∀ p ∈ ps, p.Reads bound) {vs : List Value}
    {t : Bytes} (h : Followed Spells vs t) (hb : t.length ≤ bound) (index : ℕ) (s s' : σ)
    (rest rest' : Bytes) :
    r.positions (ps.map field) index false s (t ++ Mark.closeBracket :: rest) = .ok (s', rest') ↔
      Fills ps s vs s' ∧ rest' = rest := by
  induction h generalizing ps index s with
  | nil hw => exact positions_blank hw ps index false s s' rest rest'
  | @cons v vs w l m t hw hl hm ht ih =>
    have hspace : isSpace Mark.comma = false := rfl
    have hne : (Mark.comma == Mark.closeBracket) = false := rfl
    simp only [List.length_append, List.length_cons] at hb
    rw [List.append_assoc, List.cons_append]
    cases ps with
    | nil => simp [Schema.positions, skipSpace_blank hw hspace, hne, Fills]
    | cons p ps =>
      have hxs := fun u => ih (fun q hq => hps q (List.mem_cons_of_mem p hq)) (by omega)
        (index + 1) u
      have hread := (hps p List.mem_cons_self s v m hm (by omega)).bind hl
        (ht.stop List.mem_cons_self rest) (r.positions (ps.map field) (index + 1) false) (s', rest')
      simp only [hxs, ← and_assoc, exists_and_right, ← fills_cons] at hread
      rw [List.map_cons, Schema.positions, skipSpace_blank hw hspace]
      simpa [hne] using hread

theorem positions_listed {ps : List (Slot σ)} {vs : List Value} {m : Bytes}
    (hps : ∀ p ∈ ps, p.Reads m.length) (h : Listed Spells vs m) (s s' : σ) (rest rest' : Bytes) :
    r.positions (ps.map field) 0 true s (m ++ Mark.closeBracket :: rest) = .ok (s', rest') ↔
      Fills ps s vs s' ∧ rest' = rest := by
  cases h with
  | nil hw => exact positions_blank hw ps 0 true s s' rest rest'
  | @cons v vs l m t hl hm ht =>
    obtain ⟨b, tl, rfl, hspace, hnot⟩ := hm.begins
    have hne : (b == Mark.closeBracket) = false := by
      rw [beq_eq_false_iff_ne]
      rintro rfl
      exact hnot List.mem_cons_self
    rw [List.append_assoc, List.append_assoc, List.cons_append]
    cases ps with
    | nil => simp [Schema.positions, skipSpace_blank hl hspace, hne, Fills]
    | cons p ps =>
      have htail : t.length ≤ (l ++ (b :: tl ++ t)).length := by
        simp only [List.length_append]
        omega
      have hxs := fun u => positions_followed (fun q hq => hps q (List.mem_cons_of_mem p hq)) ht
        htail (r := r) 1 u s' rest rest'
      have hread := (hps p List.mem_cons_self s v (b :: tl) hm (by simp; omega)).bind Blank.nil
        (ht.stop List.mem_cons_self rest) (r.positions (ps.map field) 1 false) (s', rest')
      simp only [hxs, ← and_assoc, exists_and_right, ← fills_cons] at hread
      rw [List.map_cons, Schema.positions, skipSpace_blank hl hspace]
      simpa [hne] using hread

end Slot

/-- The slots of a record: they do not meet, and a draft is made of nothing else. -/
structure Slots (σ : Type) where
  all : List (Slot σ)
  independent : all.Pairwise Slot.Independent
  ext (s t : σ) : (∀ p ∈ all, p.get s = p.get t) → s = t

namespace Slots

variable (slots : Slots σ)

lemma eq_or_independent {p q : Slot σ} (hp : p ∈ slots.all) (hq : q ∈ slots.all) :
    q = p ∨ p.Independent q := by
  by_cases h : q = p
  · exact .inl h
  · exact .inr (slots.independent.forall hp hq (Ne.symm h))

lemma absorbs_iff {p : Slot σ} {k : String} {v : Value} {s t : σ} (hp : p ∈ slots.all)
    (hk : k ∈ p.field.names) :
    Slot.Absorbs slots.all s (k, v) t ↔ p.get s = none ∧ ∃ a, p.shape v a ∧ t = p.set s a := by
  constructor
  · rintro (⟨q, hq, hkq, h⟩ | ⟨h, -⟩)
    · rcases slots.eq_or_independent hp hq with rfl | hi
      · exact h
      · exact absurd hkq (hi.names k hk)
    · exact absurd hk (h p hp)
  · exact fun h => .inl ⟨p, hp, hk, h⟩

theorem folds_absorbs_iff (ms : List (String × Value)) (s s' : σ) :
    Folds (Slot.Absorbs slots.all) s ms s' ↔
      ∀ p ∈ slots.all, p.Collects (p.get s) (valuesOf p.field.names ms) (p.get s') := by
  induction ms generalizing s with
  | nil =>
    simp only [folds_nil, valuesOf, List.filter_nil, List.map_nil, Slot.collects_nil]
    exact ⟨fun h p _ => by rw [h], slots.ext s' s⟩
  | cons m ms ih =>
    obtain ⟨k, v⟩ := m
    simp only [folds_cons, ih]
    by_cases hk : ∃ p ∈ slots.all, k ∈ p.field.names
    · obtain ⟨p, hp, hkp⟩ := hk
      -- The member goes to one slot, and the others see neither it nor the change of the draft.
      have hother : ∀ q ∈ slots.all, q ≠ p → ∀ a,
          valuesOf q.field.names ((k, v) :: ms) = valuesOf q.field.names ms ∧
            q.get (p.set s a) = q.get s := by
        intro q hq hne a
        have hi := (slots.eq_or_independent hp hq).resolve_left hne
        exact ⟨valuesOf_cons_of_not_mem (hi.names k hkp) v ms, hi.get_set_left s a⟩
      simp only [slots.absorbs_iff hp hkp]
      constructor
      · rintro ⟨t, ⟨hnone, a, ha, rfl⟩, hall⟩ q hq
        by_cases hqp : q = p
        · subst hqp
          have hc := hall q hq
          rw [q.get_set] at hc
          rw [valuesOf_cons_of_mem hkp, Slot.collects_cons]
          exact ⟨hnone, a, ha, hc⟩
        · obtain ⟨hv, hg⟩ := hother q hq hqp a
          rw [hv, ← hg]
          exact hall q hq
      · intro hall
        have hc := hall p hp
        rw [valuesOf_cons_of_mem hkp, Slot.collects_cons] at hc
        obtain ⟨hnone, a, ha, hc⟩ := hc
        refine ⟨p.set s a, ⟨hnone, a, ha, rfl⟩, fun q hq => ?_⟩
        by_cases hqp : q = p
        · subst hqp
          rw [q.get_set]
          exact hc
        · obtain ⟨hv, hg⟩ := hother q hq hqp a
          rw [hg, ← hv]
          exact hall q hq
    · have hnone : ∀ p ∈ slots.all, k ∉ p.field.names := fun p hp hkp => hk ⟨p, hp, hkp⟩
      have habs : ∀ t, Slot.Absorbs slots.all s (k, v) t ↔ t = s := by
        intro t
        constructor
        · rintro (⟨p, hp, hkp, -⟩ | ⟨-, rfl⟩)
          · exact absurd hkp (hnone p hp)
          · rfl
        · exact fun h => .inr ⟨hnone, h⟩
      simp only [habs, exists_eq_left]
      refine forall₂_congr fun p hp => ?_
      rw [valuesOf_cons_of_not_mem (hnone p hp)]

end Slots

namespace Slot

def Receives (p : Slot σ) (s : σ) : Option Value → σ → Prop
  | some v, t => ∃ a, p.shape v a ∧ p.get t = some a
  | none, t => p.field.optionalLast = true ∧ p.get t = p.get s

lemma forall_getElem?_cons {p : Slot σ} {ps : List (Slot σ)} {P : ℕ → Slot σ → Prop} :
    (∀ i q, (p :: ps)[i]? = some q → P i q) ↔ P 0 p ∧ ∀ i q, ps[i]? = some q → P (i + 1) q := by
  constructor
  · exact fun h => ⟨h 0 p rfl, fun i q hq => h (i + 1) q (by simpa using hq)⟩
  · rintro ⟨h0, hs⟩ i q hq
    cases i with
    | zero =>
      obtain rfl : p = q := by simpa using hq
      exact h0
    | succ i => exact hs i q (by simpa using hq)

lemma receives_congr {p : Slot σ} {s s' t : σ} (h : p.get s = p.get s') (o : Option Value) :
    p.Receives s o t ↔ p.Receives s' o t := by
  cases o with
  | none => rw [Receives, Receives, h]
  | some v => rfl

lemma fills_iff (done : List (Slot σ)) {ps : List (Slot σ)} (hi : (done ++ ps).Pairwise Independent)
    (he : ∀ s t, (∀ p ∈ done ++ ps, p.get s = p.get t) → s = t) (vs : List Value) (s t : σ) :
    Fills ps s vs t ↔ vs.length ≤ ps.length ∧
      (∀ (i : ℕ) (p : Slot σ), ps[i]? = some p → p.Receives s vs[i]? t) ∧
      ∀ q ∈ done, q.get t = q.get s := by
  induction ps generalizing done vs s with
  | nil =>
    constructor
    · rintro ⟨rfl, rfl⟩
      simp
    · rintro ⟨hl, -, hd⟩
      have hvs : vs = [] := List.length_eq_zero_iff.mp (Nat.le_zero.mp hl)
      exact ⟨hvs, he t s fun p hp => hd p (by simpa using hp)⟩
  | cons p ps ih =>
    have hsplit : done ++ p :: ps = (done ++ [p]) ++ ps := by simp
    rw [hsplit] at hi he
    cases vs with
    | nil =>
      rw [Fills, ih (done ++ [p]) hi he, forall_getElem?_cons]
      simp only [List.length_nil, Nat.zero_le, true_and, List.getElem?_nil, List.mem_append,
        List.mem_singleton]
      constructor
      · rintro ⟨ho, hps, hd⟩
        exact ⟨⟨⟨ho, hd p (.inr rfl)⟩, hps⟩, fun q hq => hd q (.inl hq)⟩
      · rintro ⟨⟨⟨ho, hp⟩, hps⟩, hd⟩
        refine ⟨ho, hps, ?_⟩
        rintro q (hq | rfl)
        · exact hd q hq
        · exact hp
    | cons v vs =>
      -- Neither the slots done nor those to come see what is put into this one.
      have hdone : ∀ q ∈ done, ∀ a, q.get (p.set s a) = q.get s := by
        intro q hq a
        have hqp := (List.pairwise_append.mp (List.pairwise_append.mp hi).1).2.2
        exact (hqp q hq p List.mem_cons_self).get_set_right s a
      have hrest : ∀ q ∈ ps, ∀ a, q.get (p.set s a) = q.get s := by
        intro q hq a
        exact ((List.pairwise_append.mp hi).2.2 p (by simp) q hq).get_set_left s a
      rw [Fills, forall_getElem?_cons]
      simp only [ih (done ++ [p]) hi he, List.length_cons, Nat.add_le_add_iff_right,
        List.getElem?_cons_zero, List.getElem?_cons_succ, List.mem_append, List.mem_singleton]
      constructor
      · rintro ⟨a, ha, hl, hps, hd⟩
        refine ⟨hl, ⟨⟨a, ha, ?_⟩, fun i q hq => ?_⟩, fun q hq => ?_⟩
        · rw [hd p (.inr rfl), p.get_set]
        · exact (receives_congr (hrest q (List.mem_of_getElem? hq) a) _).mp (hps i q hq)
        · rw [hd q (.inl hq), hdone q hq a]
      · rintro ⟨hl, ⟨⟨a, ha, hp⟩, hps⟩, hd⟩
        refine ⟨a, ha, hl, fun i q hq => ?_, ?_⟩
        · exact (receives_congr (hrest q (List.mem_of_getElem? hq) a) _).mpr (hps i q hq)
        · rintro q (hq | rfl)
          · rw [hd q hq, hdone q hq a]
          · rw [hp, q.get_set]

end Slot

/-! ### Schemas -/

def RecordField.mayLack (f : RecordField σ) : Value → Bool
  | .array _ => f.optionalLast
  | _ => f.optional

lemma RecordField.mayLack_elective {α : Type} (name : String) (aliases : List String)
    (value : Reader α) (get : σ → Option α) (set : σ → α → σ) (v : Value) :
    (elective name aliases value get set).mayLack v = true := by
  cases v <;> rfl

lemma RecordField.mayLack_required {α : Type} (name : String) (aliases : List String)
    (value : Reader α) (get : σ → Option α) (set : σ → α → σ) (v : Value) :
    (required name aliases value get set).mayLack v = false := by
  cases v <;> rfl

lemma RecordField.mayLack_electiveMember {α : Type} (name : String) (value : Reader α)
    (get : σ → Option α) (set : σ → α → σ) (v : Value) :
    (electiveMember name value get set).mayLack v = true ↔ ∀ vs, v ≠ .array vs := by
  cases v <;> simp [mayLack, electiveMember, required]

namespace Slots

/-- A draft holds what the value gives for each of the fields. -/
def Reflects (slots : Slots σ) (v : Value) (d : σ) : Prop :=
  Holds slots.all.length v ∧ ∀ (i : ℕ) (p : Slot σ), slots.all[i]? = some p →
    ∃ o, Given v i p.field.names o ∧ Option.Rel p.shape o (p.get d) ∧
      (o = none → p.field.mayLack v = true)

structure Describes (slots : Slots σ) (r : Schema σ) (empty : σ) : Prop where
  fields_eq : r.fields = slots.all.map Slot.field
  get_empty : ∀ p ∈ slots.all, p.get empty = none

def key (r : Schema σ) (s : σ) (k : String) : Except Fault (Option (RecordField σ)) :=
  match r.fields.find? (·.goesBy k) with
  | some f => if f.filled s then .error (.mismatch (.duplicate f.name)) else .ok (some f)
  | none => .ok none

lemma fieldName_eq (r : Schema σ) (s : σ) {k : String} {t : Bytes} (ht : Quoted k.toList t)
    (tail : Bytes) : r.fieldName s (t ++ Mark.quote :: tail) = (key r s k).map (·, tail) := by
  simp only [Schema.fieldName, ht.stringTail, bind, Except.bind, key]
  cases r.fields.find? (·.goesBy k) with
  | none => rfl
  | some f =>
    by_cases hf : f.filled s = true
    · simp [hf, Except.map]
    · simp [hf, Except.map]

variable {slots : Slots σ} {r : Schema σ} {empty : σ}

def Puts (slots : Slots σ) (x : Option (RecordField σ)) (s : σ) (v : Value) (t : σ) : Prop :=
  match x with
  | some f => ∃ p ∈ slots.all, p.field = f ∧ ∃ a, p.shape v a ∧ t = p.set s a
  | none => t = s

lemma eq_of_field {p q : Slot σ} (hp : p ∈ slots.all) (hq : q ∈ slots.all)
    (h : q.field = p.field) : q = p := by
  rcases slots.eq_or_independent hp hq with rfl | hi
  · rfl
  · have hmem : p.field.name ∈ p.field.names := List.mem_cons_self
    exact absurd (h ▸ hmem) (hi.names _ hmem)

lemma key_cases (h : slots.Describes r empty) (s : σ) (k : String) :
    (∃ p ∈ slots.all, k ∈ p.field.names ∧
      ∀ x, key r s k = .ok x ↔ p.get s = none ∧ x = some p.field) ∨
    (∀ p ∈ slots.all, k ∉ p.field.names) ∧ ∀ x, key r s k = .ok x ↔ x = none := by
  unfold key
  cases hf : r.fields.find? (·.goesBy k) with
  | none =>
    right
    refine ⟨fun p hp hk => ?_, fun x => by simp [eq_comm]⟩
    have hmem : p.field ∈ r.fields := h.fields_eq ▸ List.mem_map_of_mem hp
    exact List.find?_eq_none.mp hf p.field hmem (RecordField.goesBy_iff.mpr hk)
  | some f =>
    left
    have hmem : f ∈ slots.all.map Slot.field := h.fields_eq ▸ List.mem_of_find?_eq_some hf
    obtain ⟨p, hp, rfl⟩ := List.mem_map.mp hmem
    have hgoes : p.field.goesBy k = true := by simpa using List.find?_some hf
    refine ⟨p, hp, RecordField.goesBy_iff.mp hgoes, fun x => ?_⟩
    simp only [p.filled_eq]
    cases hg : p.get s with
    | none => simp [eq_comm]
    | some a => simp

lemma key_puts_iff (h : slots.Describes r empty) (s : σ) (k : String) (v : Value) (t : σ) :
    (∃ x, key r s k = .ok x ∧ slots.Puts x s v t) ↔ Slot.Absorbs slots.all s (k, v) t := by
  rcases key_cases h s k with ⟨p, hp, hk, hx⟩ | ⟨hnone, hx⟩
  · simp only [slots.absorbs_iff hp hk, hx]
    constructor
    · rintro ⟨-, ⟨hg, rfl⟩, q, hq, hqp, ha⟩
      obtain rfl := eq_of_field hp hq hqp
      exact ⟨hg, ha⟩
    · rintro ⟨hg, ha⟩
      exact ⟨_, ⟨hg, rfl⟩, p, hp, rfl, ha⟩
  · simp only [hx, exists_eq_left]
    constructor
    · exact fun ht => .inr ⟨hnone, ht⟩
    · rintro (⟨p, hp, hk, -⟩ | ⟨-, ht⟩)
      · exact absurd hk (hnone p hp)
      · exact ht

lemma member_readsAs (h : slots.Describes r empty) {bound : ℕ}
    (hps : ∀ p ∈ slots.all, p.Reads bound) {k : String} {x : Option (RecordField σ)} {s : σ}
    (hx : key r s k = .ok x) {v : Value} {n : Bytes} (hv : Spells v n) (hn : n.length ≤ bound) :
    ReadsAs (Schema.member x s) (slots.Puts x s v) n := by
  cases x with
  | none =>
    intro w rest hw hr t rest'
    have hskip := skipValue_readsAs (w ++ (n ++ rest)) hv (by simp; omega)
    have hread := hskip.map (fun _ => s) w rest hw hr t rest'
    simpa [Schema.member, Puts] using hread
  | some f =>
    rcases key_cases h s k with ⟨p, hp, -, hx'⟩ | ⟨-, hx'⟩
    · obtain ⟨-, hf⟩ := (hx' _).mp hx
      obtain rfl := Option.some.inj hf
      refine (hps p hp s v n hv hn).congr fun t => ⟨fun ha => ⟨p, hp, rfl, ha⟩, ?_⟩
      rintro ⟨q, hq, hqp, ha⟩
      obtain rfl := eq_of_field hp hq hqp
      exact ha
    · simp [hx'] at hx

lemma collects_none_iff {p : Slot σ} {vs : List Value} {o : Option p.content} :
    p.Collects none vs o ↔ ∃ x : Option Value, vs = x.toList ∧ Option.Rel p.shape x o := by
  constructor
  · rintro (⟨rfl, rfl⟩ | ⟨v, a, rfl, -, ha, rfl⟩)
    · exact ⟨none, rfl, .none⟩
    · exact ⟨some v, rfl, .some ha⟩
  · rintro ⟨x, rfl, hx⟩
    cases hx with
    | none => exact .inl ⟨rfl, rfl⟩
    | @some v a ha => exact .inr ⟨v, a, rfl, rfl, ha, rfl⟩

lemma missing?_eq_none_iff (h : slots.Describes r empty) (d : σ) :
    r.missing? d = none ↔ ∀ p ∈ slots.all, p.get d = none → p.field.optional = true := by
  rw [Schema.missing?, h.fields_eq, List.find?_eq_none]
  simp only [List.forall_mem_map]
  refine forall₂_congr fun p hp => ?_
  rw [p.filled_eq]
  cases p.get d <;> simp

lemma forall_getElem?_iff {P : Slot σ → Prop} {ps : List (Slot σ)} :
    (∀ (i : ℕ) (p : Slot σ), ps[i]? = some p → P p) ↔ ∀ p ∈ ps, P p := by
  constructor
  · intro h p hp
    obtain ⟨i, hi⟩ := List.mem_iff_getElem?.mp hp
    exact h i p hi
  · exact fun h i p hi => h p (List.mem_of_getElem? hi)

lemma rel_none_left {α β : Type} {R : α → β → Prop} {o : Option β} :
    Option.Rel R none o ↔ o = none := by
  cases o <;> simp

lemma rel_some_left {α β : Type} {R : α → β → Prop} {a : α} {o : Option β} :
    Option.Rel R (some a) o ↔ ∃ b, R a b ∧ o = some b := by
  cases o <;> simp

lemma reflects_object_iff (h : slots.Describes r empty) (ms : List (String × Value)) (d : σ) :
    slots.Reflects (.object ms) d ↔
      Folds (Slot.Absorbs slots.all) empty ms d ∧ r.missing? d = none := by
  rw [folds_absorbs_iff, missing?_eq_none_iff h, Reflects]
  simp only [Holds, true_and, Given, RecordField.mayLack]
  rw [forall_getElem?_iff]
  constructor
  · intro hall
    refine ⟨fun p hp => ?_, fun p hp hnone => ?_⟩
    · obtain ⟨o, ho, hr, -⟩ := hall p hp
      rw [h.get_empty p hp]
      exact collects_none_iff.mpr ⟨o, ho, hr⟩
    · obtain ⟨o, -, hr, ho⟩ := hall p hp
      rw [hnone] at hr
      exact ho (by cases hr; rfl)
  · rintro ⟨hc, hm⟩ p hp
    have hcp := hc p hp
    rw [h.get_empty p hp] at hcp
    obtain ⟨o, ho, hr⟩ := collects_none_iff.mp hcp
    refine ⟨o, ho, hr, ?_⟩
    rintro rfl
    exact hm p hp (rel_none_left.mp hr)

lemma reflects_array_iff (h : slots.Describes r empty) (vs : List Value) (d : σ) :
    slots.Reflects (.array vs) d ↔ Slot.Fills slots.all empty vs d := by
  have hf : Slot.Fills slots.all empty vs d ↔ _ :=
    Slot.fills_iff [] slots.independent slots.ext vs empty d
  have heach : ∀ (i : ℕ) (p : Slot σ), slots.all[i]? = some p → (p.Receives empty vs[i]? d ↔
      Option.Rel p.shape vs[i]? (p.get d) ∧ (vs[i]? = none → p.field.optionalLast = true)) := by
    intro i p hp
    have hempty := h.get_empty p (List.mem_of_getElem? hp)
    cases vs[i]? with
    | none => simp [Slot.Receives, rel_none_left, hempty, and_comm]
    | some v => simp [Slot.Receives, rel_some_left]
  rw [hf, forall₃_congr heach]
  simp [Reflects, Holds, Given, RecordField.mayLack]

theorem Describes.read_readsAs (h : slots.Describes r empty) {bound : ℕ}
    (hps : ∀ p ∈ slots.all, p.Reads bound) {v : Value} {m : Bytes} (hv : Spells v m)
    (hm : m.length ≤ bound + 1) : ReadsAs (r.read empty) (slots.Reflects v) m := by
  intro w rest hw hr d rest'
  obtain ⟨b, tl, rfl, ho, hskip⟩ := hv.skipSpace hw rest
  rw [Schema.read, hskip]
  by_cases hbracket : b = Mark.openBracket
  · obtain ⟨vs, rfl⟩ := ho.kind.array.mp hbracket
    cases hv with
    | @array vs m hl =>
      simp only [List.length_cons, List.length_append, List.length_nil] at hm
      have hps' : ∀ p ∈ slots.all, p.Reads m.length := fun p hp s v n hv hn =>
        hps p hp s v n hv (by omega)
      rw [reflects_array_iff h, ← Slot.positions_listed (r := r) hps' hl empty d rest rest',
        ← h.fields_eq]
      simp
  · by_cases hbrace : b = Mark.openBrace
    · obtain ⟨ms, rfl⟩ := ho.kind.object.mp hbrace
      cases hv with
      | @object ms m hl =>
        simp only [List.length_cons, List.length_append, List.length_nil] at hm
        have habs : (fun s p t => ∃ x, key r s p.1 = .ok x ∧ slots.Puts x s p.2 t) =
            Slot.Absorbs slots.all := by
          funext s p t
          exact propext (key_puts_iff h s p.1 p.2 t)
        have hloop := members_listed (key r) slots.Puts hl
          (fun s k t tail ht => fieldName_eq r s ht tail)
          (fun k x s v n hx hv hn => member_readsAs h hps hx hv (by omega)) empty
        rw [habs] at hloop
        rw [reflects_object_iff h, List.append_assoc, List.singleton_append]
        have hne : (Mark.openBrace == Mark.openBracket) = false := rfl
        simp only [hne, Bool.false_eq_true, if_false, beq_self_eq_true, if_true, ok_of_bind,
          Prod.exists, hloop]
        constructor
        · rintro ⟨d', bs, ⟨hf, rfl⟩, hmiss⟩
          cases hd : r.missing? d' with
          | none =>
            simp only [hd, ok_of_pure, Prod.mk.injEq] at hmiss
            obtain ⟨rfl, rfl⟩ := hmiss
            exact ⟨⟨hf, hd⟩, rfl⟩
          | some f => simp [hd] at hmiss
        · rintro ⟨⟨hf, hd⟩, rfl⟩
          exact ⟨d, rest', ⟨hf, rfl⟩, by simp [hd, pure, Except.pure]⟩
    · have hnot : ¬ slots.Reflects v d := by
        rintro ⟨hh, -⟩
        cases v with
        | object ms => exact hbrace (ho.kind.object.mpr ⟨ms, rfl⟩)
        | array vs => exact hbracket (ho.kind.array.mpr ⟨vs, rfl⟩)
        | _ => exact hh
      simp [hbracket, hbrace, hnot, wrongKind_ne_ok]

end Slots

end SettingCatalog.Json
