import SettingCatalog.Proofs.Json.Containers

/-! A text holds one value. Where an item ends shows in its own text, so that two readings of a text
go side by side. -/

namespace SettingCatalog.Json

variable {ι : Type} {P : ι → Bytes → Prop} {bound : ℕ}

/-- Of what begins a text, one item and one rest can be made. -/
def Decisive (P : ι → Bytes → Prop) (bound : ℕ) : Prop :=
  ∀ {x x' m m' rest rest'}, P x m → P x' m' → m.length ≤ bound → Stop rest → Stop rest' →
    m ++ rest = m' ++ rest' → x = x' ∧ rest = rest'

lemma Begins.skipSpace {m l : Bytes} (h : Begins m) (hl : Blank l) (rest : Bytes) :
    Json.skipSpace (l ++ (m ++ rest)) = m ++ rest := by
  obtain ⟨b, tl, rfl, hb, -⟩ := h
  exact skipSpace_blank hl hb _

section Listed

variable {close : UInt8} {rest rest' : Bytes} (hP : Decisive P bound)
  (hbegins : ∀ x m, P x m → Begins m) (hclose : close ∈ [Mark.closeBracket, Mark.closeBrace])

include hP hbegins hclose

lemma Followed.unique {xs xs' : List ι} {t t' : Bytes} (h : Followed P xs t)
    (h' : Followed P xs' t') (hb : t.length ≤ bound)
    (heq : t ++ close :: rest = t' ++ close :: rest') : xs = xs' ∧ rest = rest' := by
  obtain ⟨hspace, hcomma⟩ := close_lacks hclose
  induction h generalizing xs' t' with
  | nil hw =>
    have hskip := congrArg skipSpace heq
    rw [skipSpace_blank hw hspace] at hskip
    cases h' with
    | nil hw' =>
      rw [skipSpace_blank hw' hspace] at hskip
      exact ⟨rfl, (List.cons.inj hskip).2⟩
    | cons hw' =>
      rw [List.append_assoc, List.cons_append, skipSpace_blank hw' rfl] at hskip
      exact absurd (List.cons.inj hskip).1.symm hcomma
  | @cons x xs w l m t hw hl hm ht ih =>
    simp only [List.append_assoc, List.cons_append] at heq
    have hskip := congrArg skipSpace heq
    rw [skipSpace_blank hw rfl] at hskip
    cases h' with
    | nil hw' =>
      rw [skipSpace_blank hw' hspace] at hskip
      exact absurd (List.cons.inj hskip).1 hcomma
    | @cons x' xs' w' l' m' t' hw' hl' hm' ht' =>
      simp only [List.length_append, List.length_cons] at hb
      simp only [List.append_assoc, List.cons_append] at hskip
      rw [skipSpace_blank hw' rfl] at hskip
      have htail := congrArg skipSpace (List.cons.inj hskip).2
      rw [(hbegins x m hm).skipSpace hl, (hbegins x' m' hm').skipSpace hl'] at htail
      obtain ⟨rfl, hrest⟩ :=
        hP hm hm' (by omega) (ht.stop hclose rest) (ht'.stop hclose rest') htail
      obtain ⟨rfl, hend⟩ := ih ht' (by omega) hrest
      exact ⟨rfl, hend⟩

lemma Listed.unique {xs xs' : List ι} {t t' : Bytes} (h : Listed P xs t) (h' : Listed P xs' t')
    (hb : t.length ≤ bound) (heq : t ++ close :: rest = t' ++ close :: rest') :
    xs = xs' ∧ rest = rest' := by
  obtain ⟨hspace, -⟩ := close_lacks hclose
  have hends {x : ι} {m : Bytes} (hm : P x m) (u : Bytes) : m ++ u ≠ close :: rest ∧
      m ++ u ≠ close :: rest' := by
    obtain ⟨b, tl, rfl, -, hb⟩ := hbegins x m hm
    constructor <;> (rintro ⟨⟩; exact hb hclose)
  have hskip := congrArg skipSpace heq
  cases h with
  | nil hw =>
    rw [skipSpace_blank hw hspace] at hskip
    cases h' with
    | nil hw' =>
      rw [skipSpace_blank hw' hspace] at hskip
      exact ⟨rfl, (List.cons.inj hskip).2⟩
    | cons hl' hm' =>
      simp only [List.append_assoc] at hskip
      rw [(hbegins _ _ hm').skipSpace hl'] at hskip
      exact absurd hskip.symm (hends hm' _).1
  | cons hl hm ht =>
    simp only [List.append_assoc] at hskip
    rw [(hbegins _ _ hm).skipSpace hl] at hskip
    cases h' with
    | nil hw' =>
      rw [skipSpace_blank hw' hspace] at hskip
      exact absurd hskip (hends hm _).2
    | cons hl' hm' ht' =>
      simp only [List.length_append] at hb
      simp only [List.append_assoc] at hskip
      rw [(hbegins _ _ hm').skipSpace hl'] at hskip
      obtain ⟨rfl, hrest⟩ :=
        hP hm hm' (by omega) (ht.stop hclose rest) (ht'.stop hclose rest') hskip
      obtain ⟨rfl, hend⟩ := ht.unique hP hbegins hclose ht' (by omega) hrest
      exact ⟨rfl, hend⟩

end Listed

lemma member_decisive (h : Decisive Spells bound) : Decisive (Member Spells) bound := by
  intro p p' m m' rest rest' hm hm' hb hr hr' heq
  cases hm with
  | @mk k v n w l m hn hw hl hv =>
    cases hm' with
    | @mk k' v' n' w' l' m' hn' hw' hl' hv' =>
      simp only [List.length_append, List.length_cons] at hb
      simp only [List.cons_append, List.append_assoc] at heq
      have hname := congrArg stringTail (List.cons.inj heq).2
      rw [hn.stringTail, hn'.stringTail] at hname
      obtain ⟨rfl, htail⟩ := Prod.mk.inj (Except.ok.inj hname)
      have hcolon := congrArg skipSpace htail
      rw [skipSpace_blank hw rfl, skipSpace_blank hw' rfl] at hcolon
      have hvalue := congrArg skipSpace (List.cons.inj hcolon).2
      rw [hv.begins.skipSpace hl, hv'.begins.skipSpace hl'] at hvalue
      obtain ⟨rfl, hrest⟩ := h hv hv' (by omega) hr hr' hvalue
      exact ⟨rfl, hrest⟩

lemma Opens.bool {v : Value} {x : Bool} (h : Opens v (if x then Mark.lowerT else Mark.lowerF)) :
    v = .bool x := by
  cases v with
  | bool y => cases x <;> cases y <;> first | rfl | exact absurd (show _ = _ from h) (by decide)
  | number l => cases x <;> exact absurd rfl (ne_of_numeric h (by simp))
  | _ => cases x <;> exact absurd (show _ = _ from h) (by decide)

lemma Unsigned.unique {u u' rest rest' : Bytes} (h : Unsigned u) (h' : Unsigned u')
    (hr : Stop rest) (hr' : Stop rest') (heq : u ++ rest = u' ++ rest') :
    u = u' ∧ rest = rest' := by
  obtain ⟨n, hn⟩ := h.numeral .truncated hr
  obtain ⟨n', hn'⟩ := h'.numeral .truncated hr'
  rw [heq, hn'] at hn
  have hrest : rest = rest' := (Prod.mk.inj (Except.ok.inj hn)).2.symm
  rw [hrest] at heq
  exact ⟨List.append_cancel_right heq, hrest⟩

lemma Numeric.unique {m m' rest rest' : Bytes} (h : Numeric m) (h' : Numeric m')
    (hr : Stop rest) (hr' : Stop rest') (heq : m ++ rest = m' ++ rest') :
    m = m' ∧ rest = rest' := by
  have hminus {u v t : Bytes} (hu : Unsigned u) : u ++ t ≠ Mark.minus :: v := by
    obtain ⟨b, tl, rfl, hb⟩ := hu.opens
    rintro ⟨⟩
    exact absurd hb (by decide)
  cases h with
  | positive hu =>
    cases h' with
    | positive hu' => exact hu.unique hu' hr hr' heq
    | negative => exact absurd heq (hminus hu)
  | negative hu =>
    cases h' with
    | positive hu' => exact absurd heq.symm (hminus hu')
    | negative hu' =>
      obtain ⟨rfl, hrest⟩ := hu.unique hu' hr hr' (List.cons.inj heq).2
      exact ⟨rfl, hrest⟩

theorem spells_decisive (bound : ℕ) : Decisive Spells bound := by
  induction bound with
  | zero =>
    intro v v' m m' rest rest' h h' hb
    obtain ⟨b, tl, rfl, -⟩ := h.opens
    simp at hb
  | succ bound ih =>
    intro v v' m m' rest rest' h h' hb hr hr' heq
    -- The first byte is the same, so that the values are of one kind.
    obtain ⟨b, tl, hm, ho⟩ := h.opens
    obtain ⟨b', tl', hm', ho'⟩ := h'.opens
    obtain rfl : b = b' := by
      rw [hm, hm'] at heq
      exact (List.cons.inj heq).1
    clear hm hm'
    cases h with
    | null =>
      obtain rfl := ho'.kind.null.mp ho
      cases h' with
      | null => exact ⟨rfl, List.append_cancel_left heq⟩
    | yes =>
      obtain rfl : v' = .bool true := Opens.bool (ho ▸ ho')
      cases h' with
      | yes => exact ⟨rfl, List.append_cancel_left heq⟩
    | no =>
      obtain rfl : v' = .bool false := Opens.bool (ho ▸ ho')
      cases h' with
      | no => exact ⟨rfl, List.append_cancel_left heq⟩
    | @number literal hn =>
      obtain ⟨literal', rfl⟩ := ho'.kind.number.mp ho
      cases h' with
      | number hn' =>
        obtain ⟨hl, hrest⟩ := hn.unique hn' hr hr' heq
        have hread := congrArg Text.Utf8.decode? hl
        rw [Text.Utf8.decode?_encode, Text.Utf8.decode?_encode, Option.some.injEq] at hread
        exact ⟨congrArg Value.number hread, hrest⟩
    | text hq =>
      obtain ⟨s', rfl⟩ := ho'.kind.text.mp ho
      cases h' with
      | text hq' =>
        simp only [List.cons_append, List.append_assoc, List.nil_append] at heq
        have hread := congrArg stringTail (List.cons.inj heq).2
        rw [hq.stringTail, hq'.stringTail] at hread
        obtain ⟨rfl, hrest⟩ := Prod.mk.inj (Except.ok.inj hread)
        exact ⟨rfl, hrest⟩
    | array hl =>
      obtain ⟨vs', rfl⟩ := ho'.kind.array.mp ho
      cases h' with
      | array hl' =>
        simp only [List.cons_append, List.append_assoc, List.nil_append] at heq
        simp only [List.length_cons, List.length_append] at hb
        obtain ⟨rfl, hrest⟩ := hl.unique ih (fun _ _ => Spells.begins) (by simp) hl' (by omega)
          (List.cons.inj heq).2
        exact ⟨rfl, hrest⟩
    | object hl =>
      obtain ⟨ms', rfl⟩ := ho'.kind.object.mp ho
      cases h' with
      | object hl' =>
        simp only [List.cons_append, List.append_assoc, List.nil_append] at heq
        simp only [List.length_cons, List.length_append] at hb
        obtain ⟨rfl, hrest⟩ := hl.unique (member_decisive ih) (fun _ _ => Member.begins) (by simp)
          hl' (by omega) (List.cons.inj heq).2
        exact ⟨rfl, hrest⟩

theorem Document.unique {v v' : Value} {bs : Bytes} (h : Document v bs) (h' : Document v' bs) :
    v = v' := by
  cases h with
  | @mk l m r hl hm hr =>
    generalize heq : l ++ (m ++ r) = bs at h'
    cases h' with
    | @mk l' m' r' hl' hm' hr' =>
      have hskip := congrArg skipSpace heq
      rw [hm.begins.skipSpace hl, hm'.begins.skipSpace hl'] at hskip
      exact (spells_decisive m.length hm hm' (Nat.le_refl _) hr.stop hr'.stop hskip).1

end SettingCatalog.Json
