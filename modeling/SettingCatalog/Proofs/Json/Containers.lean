import SettingCatalog.Proofs.Json.Reading

/-! Arrays and objects. The loops over elements and members are one loop, which takes the state
from item to item; what it gives on a text is a fold over the items. -/

namespace SettingCatalog.Json

variable {α σ κ ι : Type}

def items (close : UInt8) (item : Stateful σ) : Bytes → Bool → Stateful σ
  | [], _, _, _ => .error .truncated
  | _ :: rounds, first, s, bs =>
    match skipSpace bs with
    | [] => .error .truncated
    | b :: rest =>
      if b == close then .ok (s, rest)
      else if first then do
        let (s, rest) ← item s (b :: rest)
        items close item rounds false s rest
      else if b == Mark.comma then do
        let (s, rest) ← item s rest
        items close item rounds false s rest
      else .error .malformed

lemma elements_eq_items (element : Stateful σ) (rounds : Bytes) (first : Bool) :
    elements element rounds first = items Mark.closeBracket element rounds first := by
  induction rounds generalizing first with
  | nil => rfl
  | cons r rounds ih =>
    funext s bs
    simp only [elements, items]
    cases skipSpace bs with
    | nil => rfl
    | cons b rest => simp only [ih]

lemma members_eq_items (name : σ → Reader κ) (member : κ → Stateful σ) (rounds : Bytes)
    (first : Bool) :
    members name member rounds first = items Mark.closeBrace
      (fun s bs => do
        let (k, rest) ← memberName (name s) bs
        member k s rest) rounds first := by
  induction rounds generalizing first with
  | nil => rfl
  | cons r rounds ih =>
    funext s bs
    simp only [members, items]
    cases skipSpace bs with
    | nil => rfl
    | cons b rest => simp only [ih, bind_assoc]

/-- A state is led to another by the items, one after the other. -/
inductive Folds (step : σ → ι → σ → Prop) : σ → List ι → σ → Prop
  | nil {s : σ} : Folds step s [] s
  | cons {s t u : σ} {x : ι} {xs : List ι} : step s x t → Folds step t xs u →
      Folds step s (x :: xs) u

lemma folds_nil {step : σ → ι → σ → Prop} {s t : σ} : Folds step s [] t ↔ t = s := by
  constructor
  · rintro ⟨⟩
    rfl
  · rintro rfl
    exact .nil

lemma folds_cons {step : σ → ι → σ → Prop} {s u : σ} {x : ι} {xs : List ι} :
    Folds step s (x :: xs) u ↔ ∃ t, step s x t ∧ Folds step t xs u := by
  constructor
  · rintro ⟨⟩
    exact ⟨_, ‹_›, ‹_›⟩
  · rintro ⟨t, hs, ht⟩
    exact .cons hs ht

section Loop

variable {P : ι → Bytes → Prop} {close : UInt8} {item : Stateful σ} {step : σ → ι → σ → Prop}

lemma Followed.stop {xs : List ι} {t : Bytes} (h : Followed P xs t)
    (hclose : close ∈ [Mark.closeBracket, Mark.closeBrace]) (rest : Bytes) :
    Stop (t ++ close :: rest) := by
  cases h with
  | nil hw => exact .blank hw (.mark (List.mem_cons_of_mem _ hclose) rest)
  | cons hw =>
    rw [List.append_assoc]
    exact .blank hw (.mark List.mem_cons_self _)

lemma Followed.length_le {xs : List ι} {t : Bytes} (h : Followed P xs t) :
    xs.length ≤ t.length := by
  induction h with
  | nil => simp
  | cons _ _ _ _ ih =>
    simp only [List.length_cons, List.length_append]
    omega

lemma close_lacks (h : close ∈ [Mark.closeBracket, Mark.closeBrace]) :
    isSpace close = false ∧ Mark.comma ≠ close := by
  simp only [List.mem_cons, List.not_mem_nil, or_false] at h
  rcases h with rfl | rfl
  · decide
  · decide

lemma items_close (hclose : close ∈ [Mark.closeBracket, Mark.closeBrace]) {w rounds : Bytes}
    (hw : Blank w) (hr : 0 < rounds.length) (first : Bool) (s : σ) (rest : Bytes) :
    items close item rounds first s (w ++ close :: rest) = .ok (s, rest) := by
  cases rounds with
  | nil => simp at hr
  | cons r rounds =>
    rw [items, skipSpace_blank hw (close_lacks hclose).1]
    simp

lemma items_followed (hclose : close ∈ [Mark.closeBracket, Mark.closeBrace]) {bound : ℕ}
    (hitem : ∀ s x m, P x m → m.length ≤ bound → ReadsAs (item s) (step s x) m) {xs : List ι}
    {t : Bytes} (h : Followed P xs t) (hb : t.length ≤ bound) {rounds : Bytes}
    (hrounds : xs.length < rounds.length) (s s' : σ) (rest rest' : Bytes) :
    items close item rounds false s (t ++ close :: rest) = .ok (s', rest') ↔
      Folds step s xs s' ∧ rest' = rest := by
  induction h generalizing rounds s with
  | nil hw =>
    rw [items_close hclose hw (by simpa using hrounds), folds_nil]
    simp [eq_comm]
  | @cons x xs w l m t hw hl hm ht ih =>
    cases rounds with
    | nil => simp at hrounds
    | cons r rounds =>
      simp only [List.length_append, List.length_cons] at hb hrounds
      have hcomma : (Mark.comma == close) = false := by simpa using (close_lacks hclose).2
      have hxs : ∀ u, items close item rounds false u (t ++ close :: rest) = .ok (s', rest') ↔
          Folds step u xs s' ∧ rest' = rest := ih (by omega) (by omega)
      have hread := (hitem s x m hm (by omega)).bind hl (ht.stop hclose rest)
        (items close item rounds false) (s', rest')
      simp only [hxs, ← and_assoc, exists_and_right, ← folds_cons] at hread
      rw [items, List.append_assoc, List.cons_append, skipSpace_blank hw rfl]
      simpa [hcomma] using hread

def Begins (m : Bytes) : Prop :=
  ∃ b tl, m = b :: tl ∧ isSpace b = false ∧ b ∉ [Mark.closeBracket, Mark.closeBrace]

lemma Listed.length_le (hP : ∀ x m, P x m → Begins m) {xs : List ι} {m : Bytes}
    (h : Listed P xs m) : xs.length ≤ m.length := by
  cases h with
  | nil => simp
  | cons hl hm ht =>
    obtain ⟨b, tl, rfl, -⟩ := hP _ _ hm
    have := ht.length_le
    simp only [List.length_cons, List.length_append]
    omega

theorem items_listed (hclose : close ∈ [Mark.closeBracket, Mark.closeBrace])
    (hP : ∀ x m, P x m → Begins m) {xs : List ι} {m : Bytes} (h : Listed P xs m)
    (hitem : ∀ s x n, P x n → n.length ≤ m.length → ReadsAs (item s) (step s x) n) {rounds : Bytes}
    (hrounds : m.length < rounds.length) (s s' : σ) (rest rest' : Bytes) :
    items close item rounds true s (m ++ close :: rest) = .ok (s', rest') ↔
      Folds step s xs s' ∧ rest' = rest := by
  have hlen := h.length_le hP
  cases h with
  | nil hw =>
    rw [items_close hclose hw (by omega), folds_nil]
    simp [eq_comm]
  | @cons x xs l m t hl hm ht =>
    cases rounds with
    | nil => simp at hrounds
    | cons r rounds =>
      obtain ⟨b, tl, rfl, hspace, hnot⟩ := hP x m hm
      simp only [List.length_append, List.length_cons] at hrounds hlen hitem
      have hbc : (b == close) = false := by
        rw [beq_eq_false_iff_ne]
        rintro rfl
        exact hnot hclose
      have hxs : ∀ u, items close item rounds false u (t ++ close :: rest) = .ok (s', rest') ↔
          Folds step u xs s' ∧ rest' = rest := fun u =>
        items_followed hclose hitem ht (by omega) (by omega) u s' rest rest'
      have hread := (hitem s x (b :: tl) hm (by rw [List.length_cons]; omega)).bind Blank.nil
        (ht.stop hclose rest) (items close item rounds false) (s', rest')
      simp only [hxs, ← and_assoc, exists_and_right, ← folds_cons] at hread
      rw [items, List.append_assoc, List.append_assoc, List.cons_append, skipSpace_blank hl hspace]
      simpa [hbc] using hread

end Loop

/-! ### Arrays -/

lemma Spells.begins {v : Value} {m : Bytes} (h : Spells v m) : Begins m := by
  obtain ⟨b, tl, rfl, ho⟩ := h.opens
  exact ⟨b, tl, rfl, ho.lacks⟩

theorem elements_listed {element : Stateful σ} (step : σ → Value → σ → Prop) {vs : List Value}
    {m : Bytes} (h : Listed Spells vs m)
    (helement : ∀ s v n, Spells v n → n.length ≤ m.length → ReadsAs (element s) (step s v) n)
    (s s' : σ) (rest rest' : Bytes) :
    elements element (m ++ Mark.closeBracket :: rest) true s (m ++ Mark.closeBracket :: rest) =
      .ok (s', rest') ↔ Folds step s vs s' ∧ rest' = rest := by
  rw [elements_eq_items]
  exact items_listed List.mem_cons_self (fun _ _ => Spells.begins) h helement (by simp) s s' rest
    rest'

lemma folds_push {shape : Value → α → Prop} {vs : List Value} {found found' : List α} :
    Folds (fun s v t => ∃ a, shape v a ∧ t = a :: s) found vs found' ↔
      ∃ as, List.Forall₂ shape vs as ∧ found' = as.reverse ++ found := by
  induction vs generalizing found with
  | nil => simp [folds_nil]
  | cons v vs ih =>
    simp only [folds_cons, ih, List.forall₂_cons_left_iff]
    constructor
    · rintro ⟨t, ⟨a, ha, rfl⟩, as, has, rfl⟩
      exact ⟨a :: as, ⟨a, as, ha, has, rfl⟩, by simp⟩
    · rintro ⟨-, ⟨a, as, ha, has, rfl⟩, rfl⟩
      exact ⟨a :: found, ⟨a, ha, rfl⟩, as, has, by simp⟩

def Elements (shape : Value → α → Prop) (v : Value) (as : List α) : Prop :=
  ∃ vs, v = .array vs ∧ List.Forall₂ shape vs as

theorem list_readsAs {value : Reader α} {shape : Value → α → Prop} {v : Value} {m : Bytes}
    (h : Spells v m)
    (hvalue : ∀ v' n, Spells v' n → n.length < m.length → ReadsAs value (shape v') n) :
    ReadsAs (list value) (Elements shape v) m := by
  intro w rest hw hr as rest'
  obtain ⟨b, tl, rfl, ho, hskip⟩ := h.skipSpace hw rest
  rw [list, hskip]
  by_cases hb : b = Mark.openBracket
  · obtain ⟨vs, rfl⟩ := ho.kind.array.mp hb
    cases h with
    | @array vs m hl =>
      have hvalue' : ∀ v' n, Spells v' n → n.length ≤ m.length → ReadsAs value (shape v') n :=
        fun v' n hv hn => hvalue v' n hv
          (by simp only [List.length_cons, List.length_append]; omega)
      have hloop := elements_listed _ hl (fun s v' n hv hn => (hvalue' v' n hv hn).map (· :: s)) []
      simp only [folds_push, List.append_nil] at hloop
      have hshape : Elements shape (.array vs) as ↔ List.Forall₂ shape vs as := by simp [Elements]
      simp only [List.append_assoc, List.singleton_append, beq_self_eq_true, if_true, ok_of_bind,
        Prod.exists, hloop, ok_of_pure, Prod.mk.injEq, hshape]
      constructor
      · rintro ⟨-, r, ⟨⟨as', has, rfl⟩, rfl⟩, rfl, rfl⟩
        rw [List.reverse_reverse]
        exact ⟨has, rfl⟩
      · rintro ⟨has, rfl⟩
        exact ⟨as.reverse, rest', ⟨⟨as, has, rfl⟩, rfl⟩, List.reverse_reverse as, rfl⟩
  · have hv : ¬ Elements shape v as := by
      rintro ⟨vs, hv, -⟩
      exact hb (ho.kind.array.mpr ⟨vs, hv⟩)
    simp [hb, hv, wrongKind_ne_ok]

/-! ### Objects -/

lemma Member.begins {p : String × Value} {m : Bytes} (h : Member Spells p m) : Begins m := by
  cases h with
  | mk => exact ⟨Mark.quote, _, rfl, by decide⟩

lemma Member.readsAs {name : Reader κ} {member : κ → Reader σ} {k : String} {v : Value} {n : Bytes}
    {key : Except Fault κ} {step : κ → σ → Prop} (h : Member Spells (k, v) n)
    (hname : ∀ t tail, Quoted k.toList t → name (t ++ Mark.quote :: tail) = key.map (·, tail))
    (hmember : ∀ x m, key = .ok x → Spells v m → m.length < n.length →
      ReadsAs (member x) (step x) m) :
    ReadsAs (fun bs => do
        let (x, rest) ← memberName name bs
        member x rest)
      (fun s => ∃ x, key = .ok x ∧ step x s) n := by
  intro w rest hw hr s rest'
  cases h with
  | @mk _ _ t wc l m ht hwc hl hm =>
    have hsplit : w ++ (Mark.quote :: (t ++ Mark.quote :: (wc ++ Mark.colon :: (l ++ m))) ++ rest) =
        w ++ Mark.quote :: (t ++ Mark.quote :: (wc ++ Mark.colon :: (l ++ (m ++ rest)))) := by simp
    dsimp only
    rw [hsplit, memberName, skipSpace_blank hw (by decide)]
    cases key with
    | error fault => simp [hname _ _ ht, Except.map, bind, Except.bind]
    | ok x =>
      have hread := hmember x m rfl hm (by simp; omega) l rest hl hr s rest'
      have hcolon : isSpace Mark.colon = false := rfl
      simpa [hname _ _ ht, Except.map, bind, Except.bind, skipSpace_blank hwc hcolon] using hread

theorem members_listed {name : σ → Reader κ} {member : κ → Stateful σ}
    (key : σ → String → Except Fault κ) (step : κ → σ → Value → σ → Prop)
    {ms : List (String × Value)} {m : Bytes} (h : Listed (Member Spells) ms m)
    (hname : ∀ s k t tail, Quoted k.toList t →
      name s (t ++ Mark.quote :: tail) = (key s k).map (·, tail))
    (hmember : ∀ k x s v n, key s k = .ok x → Spells v n → n.length ≤ m.length →
      ReadsAs (member x s) (step x s v) n)
    (s s' : σ) (rest rest' : Bytes) :
    members name member (m ++ Mark.closeBrace :: rest) true s (m ++ Mark.closeBrace :: rest) =
      .ok (s', rest') ↔
      Folds (fun s p t => ∃ x, key s p.1 = .ok x ∧ step x s p.2 t) s ms s' ∧ rest' = rest := by
  rw [members_eq_items]
  refine items_listed (by simp) (fun _ _ => Member.begins) h ?_ (by simp) s s' rest rest'
  intro s p n hp hn
  exact hp.readsAs (hname s p.1) fun x m hx hm hlt => hmember p.1 x s p.2 m hx hm (by omega)

def Texts (put : String → String → σ → σ) (empty : σ) (v : Value) (s : σ) : Prop :=
  ∃ ps : List (String × String), v = .object (ps.map fun p => (p.1, .text p.2)) ∧
    s = ps.foldl (fun s p => put p.1 p.2 s) empty

lemma folds_put {put : String → String → σ → σ} {ms : List (String × Value)} {s s' : σ} :
    Folds (fun s p t => ∃ value, p.2 = .text value ∧ t = put p.1 value s) s ms s' ↔
      ∃ ps : List (String × String), ms = ps.map (fun p => (p.1, .text p.2)) ∧
        s' = ps.foldl (fun s p => put p.1 p.2 s) s := by
  induction ms generalizing s with
  | nil =>
    rw [folds_nil]
    constructor
    · rintro rfl
      exact ⟨[], rfl, rfl⟩
    · rintro ⟨ps, hps, rfl⟩
      rw [List.map_eq_nil_iff.mp hps.symm]
      rfl
  | cons p ms ih =>
    obtain ⟨k, v⟩ := p
    simp only [folds_cons, ih]
    constructor
    · rintro ⟨t, ⟨value, rfl, rfl⟩, ps, rfl, rfl⟩
      exact ⟨(k, value) :: ps, rfl, rfl⟩
    · rintro ⟨ps, hps, rfl⟩
      cases ps with
      | nil => simp at hps
      | cons p ps =>
        obtain ⟨hp, rfl⟩ := List.cons.inj hps
        obtain ⟨rfl, rfl⟩ := Prod.mk.inj hp
        exact ⟨_, ⟨p.2, rfl, rfl⟩, ps, rfl, rfl⟩

theorem dictionary_readsAs (put : String → String → σ → σ) (empty : σ) {v : Value} {m : Bytes}
    (h : Spells v m) : ReadsAs (dictionary put empty) (Texts put empty v) m := by
  intro w rest hw hr s rest'
  obtain ⟨b, tl, rfl, ho, hskip⟩ := h.skipSpace hw rest
  rw [dictionary, hskip]
  by_cases hb : b = Mark.openBrace
  · obtain ⟨ms, rfl⟩ := ho.kind.object.mp hb
    cases h with
    | @object ms m hl =>
      have hloop := members_listed (fun _ k => .ok k) _ hl
        (fun s k t tail ht => ht.stringTail tail)
        (fun _ k s v n _ hv _ => (text_readsAs hv).map fun value => put k value s) empty
      simp only [Except.ok.injEq, exists_eq_left', folds_put] at hloop
      simp only [List.append_assoc, List.singleton_append, beq_self_eq_true, if_true]
      rw [hloop, Texts]
      simp
  · have hv : ¬ Texts put empty v s := by
      rintro ⟨ps, hv, -⟩
      exact hb (ho.kind.object.mpr ⟨_, hv⟩)
    simp [hb, hv, wrongKind_ne_ok]

/-! ### Values that are passed over -/

lemma folds_unit {step : Unit → ι → Unit → Prop} (h : ∀ s x t, step s x t) (s t : Unit)
    (xs : List ι) : Folds step s xs t := by
  induction xs generalizing s with
  | nil => exact .nil
  | cons x xs ih => exact .cons (h s x t) (ih t)

lemma skipNumber {m nesting w rest : Bytes} (h : Numeric m) (r : UInt8) (hw : Blank w)
    (hr : Stop rest) (u : Unit) (rest' : Bytes) :
    skipValue (r :: nesting) (w ++ (m ++ rest)) = .ok (u, rest') ↔ True ∧ rest' = rest := by
  cases h with
  | positive hu =>
    obtain ⟨n, hn⟩ := hu.numeral .malformed hr
    obtain ⟨b, tl, rfl, hb⟩ := hu.opens
    have hne := fun c => ne_of_numeric (c := c) (.inr hb)
    have hminus : b ≠ Mark.minus := by
      rintro rfl
      exact absurd hb (by decide)
    rw [List.cons_append] at hn ⊢
    have hspace : isSpace b = false := by simp [isSpace, hne]
    rw [skipValue, skipSpace_blank hw hspace]
    simp only [beq_iff_eq, hne, hminus, hb, if_true, if_false, List.mem_cons, true_or, or_true, hn,
      bind, Except.bind, pure, Except.pure, Except.ok.injEq, Prod.mk.injEq, true_and]
    exact eq_comm
  | negative hu =>
    obtain ⟨n, hn⟩ := hu.numeral .malformed hr
    have hne := fun c => ne_of_numeric (b := Mark.minus) (c := c) (.inl rfl)
    rw [List.cons_append, skipValue, skipSpace_blank hw (by decide)]
    simp only [beq_iff_eq, hne, if_true, if_false, List.mem_cons, true_or, or_true, hn, bind,
      Except.bind, pure, Except.pure, Except.ok.injEq, Prod.mk.injEq, true_and]
    exact eq_comm

theorem skipValue_readsAs (nesting : Bytes) {v : Value} {m : Bytes} (h : Spells v m)
    (hn : m.length ≤ nesting.length) : ReadsAs (skipValue nesting) (fun _ => True) m := by
  induction nesting generalizing v m with
  | nil =>
    obtain ⟨b, tl, rfl, -⟩ := h.opens
    simp at hn
  | cons r nesting ih =>
    intro w rest hw hr u rest'
    have hall : ∀ v n, Spells v n → n.length < m.length →
        ReadsAs (skipValue nesting) (fun _ => True) n :=
      fun v n hv hlt => ih hv (by simp only [List.length_cons] at hn; omega)
    cases h with
    | null =>
      rw [skipValue, List.cons_append, skipSpace_blank hw (by decide)]
      change literal nullTail (nullTail ++ rest) = _ ↔ _
      simp [literal_append, eq_comm]
    | yes =>
      rw [skipValue, List.cons_append, skipSpace_blank hw (by decide)]
      change literal trueTail (trueTail ++ rest) = _ ↔ _
      simp [literal_append, eq_comm]
    | no =>
      rw [skipValue, List.cons_append, skipSpace_blank hw (by decide)]
      change literal falseTail (falseTail ++ rest) = _ ↔ _
      simp [literal_append, eq_comm]
    | number hnum => exact skipNumber hnum r hw hr u rest'
    | text hq =>
      rw [skipValue, List.cons_append, skipSpace_blank hw (by decide), List.append_assoc]
      change skipStringTail _ = _ ↔ _
      rw [List.singleton_append, hq.skipStringTail]
      simp [eq_comm]
    | array hl =>
      rw [skipValue, List.cons_append, skipSpace_blank hw (by decide), List.append_assoc]
      change elements (fun _ => skipValue nesting) _ true () _ = _ ↔ _
      rw [List.singleton_append, elements_listed (fun _ _ _ => True) hl
        fun _ v n hv hle => hall v n hv
          (by simp only [List.length_cons, List.length_append]; omega)]
      simp [folds_unit]
    | object hl =>
      rw [skipValue, List.cons_append, skipSpace_blank hw (by decide), List.append_assoc]
      change members (fun _ => skipStringTail) (fun _ _ => skipValue nesting) _ true () _ = _ ↔ _
      rw [List.singleton_append, members_listed (fun _ _ => .ok ()) (fun _ _ _ _ => True) hl
        (fun _ k t tail ht => ht.skipStringTail tail)
        fun _ _ _ v n _ hv hle => hall v n hv
          (by simp only [List.length_cons, List.length_append]; omega)]
      simp [folds_unit]

end SettingCatalog.Json
