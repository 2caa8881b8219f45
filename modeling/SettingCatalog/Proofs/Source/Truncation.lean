import SettingCatalog.Proofs.Json.Extension
import SettingCatalog.Proofs.Source.Retrying
import SettingCatalog.Proofs.Text.Blank

/-! Texts that are cut. Neither a tree nor the answer of a service can be read before the mark that
closes it. -/

namespace SettingCatalog

open Json Text

/-! ### Trees and answers that grow -/

lemma Position.read_extends (q : Bytes) : Extends q Anything Position.read Position.read := by
  have hfields : List.Forall₂ (Alike q) schema.fields schema.fields :=
    .cons (.elective word_extends ..) (.cons (.elective word_extends ..) .nil)
  have hread := Extends.of_closed (Schema.read_kept hfields ⟨none, none⟩)
  exact hread.map fun d => (⟨d.line.getD 0, d.col.getD 0⟩ : Position)

theorem Node.read_growing : Growing Node.read := by
  intro q bs n n' hn
  induction n generalizing n' bs with
  | zero => exact .error
  | succ n ih =>
    cases n' with
    | zero => simp at hn
    | succ n' =>
      have hchild : Extends q Anything (Node.read n) (Node.read n') :=
        .of_closed fun bs => ih bs (Nat.le_of_succ_le_succ hn)
      have hfields : List.Forall₂ (Alike q) (schema (Node.read n)).fields
          (schema (Node.read n')).fields :=
        .cons (.required text_extends.something ..) <|
        .cons (.elective (nullableOr_extends _ text_extends.something) ..) <|
        .cons (.elective (nullable_extends text_extends.something) ..) <|
        .cons (.elective (nullableOr_extends _ (dictionary_extends _ _).something) ..) <|
        .cons (.elective (nullableOr_extends _ (list_extends hchild.something).something) ..) <|
        .cons (.elective (nullable_extends (Position.read_extends q).something) ..) .nil
      exact (Schema.read_kept hfields _ bs).map fun _ _ => congrArg Draft.finish

theorem Response.read_growing : Growing Response.read := by
  intro q bs n n' hn
  have htree : Extends q Anything (Node.read n) (Node.read n') :=
    .of_closed fun bs => Node.read_growing q bs hn
  have hfields : List.Forall₂ (Alike q) (schema (Node.read n)).fields
      (schema (Node.read n')).fields :=
    .cons (.required text_extends.something ..) <|
    .cons (.electiveMember (nullable_extends htree.something) ..) <|
    .cons (.electiveMember (nullable_extends text_extends.something) ..) .nil
  exact (Schema.read_kept hfields _ bs).map fun _ _ => congrArg fun d : Draft =>
    (⟨d.status.getD "", d.data.getD none, d.message.getD none⟩ : Response)

/-! ### Texts of trees -/

lemma Node.decode_eq_ok {bs : Bytes} {t : Node} :
    Node.decode bs = .ok t ↔ ∃ n, Node.parse bs = .ok n ∧ n.normalize = t := by
  rw [Node.decode, ok_of_bind]
  simp only [ok_of_pure]

theorem Node.decode_cut {b : Bytes} {t : Node} (h : Node.decode b = .ok t) :
    ∃ v w m, m ∈ [Mark.closeBracket, Mark.closeBrace] ∧ b = v ++ m :: w ∧ Blank w ∧
      ∀ p, p <+: b → p.length ≤ v.length → ∃ fault, Node.decode p = .error fault := by
  obtain ⟨n, hn, -⟩ := Node.decode_eq_ok.mp h
  obtain ⟨v, w, m, hm, hb, hw, hcut⟩ := Node.read_growing.whole_cut hn
  refine ⟨v, w, m, hm, hb, hw, fun p hp hlen => ?_⟩
  cases hd : Node.decode p with
  | error fault => exact ⟨fault, rfl⟩
  | ok t' =>
    obtain ⟨n', hn', -⟩ := Node.decode_eq_ok.mp hd
    exact absurd hn' (hcut p hp hlen n')

theorem Node.decode_append {b q : Bytes} {t t' : Node} (h : Node.decode b = .ok t)
    (h' : Node.decode (b ++ q) = .ok t') : Blank q := by
  obtain ⟨v, w, m, -, hb, hw, hcut⟩ := Node.decode_cut h'
  have hlen : v.length < b.length := by
    by_contra hle
    obtain ⟨fault, hfault⟩ := hcut b (List.prefix_append b q) (Nat.le_of_not_lt hle)
    rw [h] at hfault
    cases hfault
  have hq : q = (v ++ m :: w).drop b.length := by rw [← hb, List.drop_left]
  have hdrop : q = w.drop (b.length - (v.length + 1)) := by
    rw [hq, List.drop_append, List.drop_eq_nil_of_le (Nat.le_of_lt hlen), List.nil_append,
      show b.length - v.length = b.length - (v.length + 1) + 1 by omega, List.drop_succ_cons]
  intro x hx
  rw [hdrop] at hx
  exact hw x (List.mem_of_mem_drop hx)

/-! ### Replies -/

namespace Client

variable {c : Client} {path : String}

lemma blank_text {w : Bytes} (h : Blank w) :
    ∃ s : String, w = Utf8.encode s ∧ isBlankText s = true := by
  induction w with
  | nil => exact ⟨"", rfl, rfl⟩
  | cons b w ih =>
    obtain ⟨s, rfl, hs⟩ := ih fun x hx => h x (List.mem_cons_of_mem b hx)
    have hb : isSpace b = true := h b List.mem_cons_self
    have hchar : String.utf8EncodeChar (Char.ofNat b.toNat) = [b] ∧
        isBlank (Char.ofNat b.toNat) = true := by
      simp only [isSpace, Bool.or_eq_true, beq_iff_eq] at hb
      rcases hb with ((rfl | rfl) | rfl) | rfl <;> decide
    refine ⟨String.ofList (Char.ofNat b.toNat :: s.toList), ?_, ?_⟩
    · rw [encode_ofList, List.flatMap_cons, hchar.1]
      rfl
    · rw [isBlankText, String.toList_ofList, List.all_cons, hchar.2]
      exact hs

lemma classify_cases (c : Client) (path : String) (bs : Bytes) :
    (∃ e, c.classify path bs = .error e ∧ e.isTransient = true) ∨
      ∃ line r, Spoken bs line ∧ Response.decode (Utf8.encode (trim line)) = .ok r := by
  have h := verdict_classify c path bs
  generalize c.classify path bs = r at h
  cases h with
  | closed => exact .inl ⟨_, rfl, rfl⟩
  | garbled => exact .inl ⟨_, rfl, rfl⟩
  | undecodable => exact .inl ⟨_, rfl, rfl⟩
  | dataless => exact .inl ⟨_, rfl, rfl⟩
  | tree hs hd => exact .inr ⟨_, _, hs, hd⟩
  | rejected hs hd => exact .inr ⟨_, _, hs, hd⟩

lemma not_settled_transient {e : TreeError} (h : e.isTransient = true) : ¬ Settled (.error e) := by
  rintro (⟨tree, ht⟩ | ⟨path, message, ht⟩)
  · cases ht
  · cases ht
    cases h

lemma FirstLine.front {bs front back : Bytes} {m : UInt8} (h : FirstLine bs (front ++ m :: back))
    (hm : m ≠ 0xa) : 0xa ∉ front ∧ front <+: bs := by
  generalize hl : front ++ m :: back = l at h
  cases h with
  | unended hno =>
    subst hl
    exact ⟨fun hmem => hno (List.mem_append_left _ hmem), List.prefix_append front _⟩
  | @ended line rest hno =>
    have hline : front <+: line := by
      rcases List.eq_nil_or_concat back with rfl | ⟨back', x, rfl⟩
      · obtain ⟨-, hlast⟩ := List.append_inj' hl rfl
        exact absurd (List.cons.inj hlast).1 hm
      · rw [List.concat_eq_append, ← List.cons_append, ← List.append_assoc] at hl
        obtain ⟨hinit, -⟩ := List.append_inj' hl rfl
        exact ⟨m :: back', hinit⟩
    exact ⟨fun hmem => hno (hline.subset hmem), hline.trans (List.prefix_append line _)⟩

lemma line_cut {line : String} {r : Response}
    (h : Response.decode (Utf8.encode (trim line)) = .ok r) :
    ∃ front back m, m ∈ [Mark.closeBracket, Mark.closeBrace] ∧
      Utf8.encode line = front ++ m :: Utf8.encode back ∧ isBlankText back = true ∧
      ∀ cut r', Utf8.encode cut <+: front → Response.decode (Utf8.encode (trim cut)) ≠ .ok r' := by
  obtain ⟨v, w, m, hm, hv, hw, hcut⟩ := Response.read_growing.whole_cut h
  obtain ⟨s, rfl, hs⟩ := blank_text hw
  obtain ⟨back, hline, hback⟩ := encode_line line
  refine ⟨(line.toList.takeWhile isBlank).flatMap String.utf8EncodeChar ++ v, s ++ back, m, hm,
    ?_, ?_, fun cut r' hprefix => ?_⟩
  · rw [hline, hv, Utf8.encode_append]
    simp
  · rw [isBlankText, String.toList_append, List.all_append, Bool.and_eq_true]
    exact ⟨hs, hback⟩
  · have hle : v <+: Utf8.encode (trim line) := ⟨_, hv.symm⟩
    have htrim := trim_cut hprefix hle
    exact hcut _ (htrim.trans hle) htrim.length_le r'

theorem once_cut {bs : Bytes} (h : Settled (c.once path (.reply bs)).1) :
    ∃ front back m, m ∈ [Mark.closeBracket, Mark.closeBrace] ∧
      FirstLine bs (front ++ m :: Utf8.encode back) ∧ isBlankText back = true ∧
      ∀ p, p <+: bs → p.length ≤ front.length →
        ∃ e, (c.once path (.reply p)).1 = .error e ∧ e.isTransient = true := by
  have htime : c.timeout ≠ 0 := by
    intro h0
    rw [once, if_pos h0] at h
    exact not_settled_transient rfl h
  have honce (p : Bytes) : (c.once path (.reply p)).1 = c.classify path p := by
    rw [once, if_neg htime]
  rw [honce] at h
  rcases classify_cases c path bs with ⟨e, he, ht⟩ | ⟨line, r, ⟨-, hline⟩, hr⟩
  · rw [he] at h
    exact absurd h (not_settled_transient ht)
  obtain ⟨front, back, m, hm, hsplit, hback, hcut⟩ := line_cut hr
  rw [hsplit] at hline
  refine ⟨front, back, m, hm, hline, hback, fun p hp hlen => ?_⟩
  have hlf : m ≠ 0xa := by
    rintro rfl
    exact absurd hm (by decide)
  obtain ⟨hno, hfront⟩ := hline.front hlf
  have hpf : p <+: front := List.prefix_of_prefix_length_le hp hfront hlen
  rw [honce]
  rcases classify_cases c path p with htransient | ⟨cut, r', ⟨-, hcutline⟩, hr'⟩
  · exact htransient
  · have hp : FirstLine p p := .unended fun hmem => hno (hpf.subset hmem)
    rw [firstLine_iff] at hp hcutline
    rw [← hp, hcutline] at hpf
    exact absurd hr' (hcut cut r' hpf)

end Client

/-- A text that holds a tree cannot be read as one before the mark that closes it, so that only
white space may follow a text of a tree in another one. The same holds of a reply that gives a tree
or a rejection: cut before the mark that closes its answer, it counts for a failure that may
pass. -/
theorem cut_never_counts :
    (∀ b t, Node.decode b = .ok t →
      ∃ v w m, m ∈ [Mark.closeBracket, Mark.closeBrace] ∧ b = v ++ m :: w ∧ Blank w ∧
        ∀ p, p <+: b → p.length ≤ v.length → ∃ fault, Node.decode p = .error fault) ∧
    (∀ b₁ b₂ t₁ t₂, Node.decode b₁ = .ok t₁ → Node.decode b₂ = .ok t₂ → b₁ <+: b₂ →
      ∃ w, Blank w ∧ b₂ = b₁ ++ w) ∧
    ∀ (c : Client) path bs, Client.Settled (c.once path (.reply bs)).1 →
      ∃ front back m, m ∈ [Mark.closeBracket, Mark.closeBrace] ∧
        Client.FirstLine bs (front ++ m :: Utf8.encode back) ∧ isBlankText back = true ∧
        ∀ p, p <+: bs → p.length ≤ front.length →
          ∃ e, (c.once path (.reply p)).1 = .error e ∧ e.isTransient = true := by
  refine ⟨fun b t => Node.decode_cut, ?_, fun c path bs => Client.once_cut⟩
  rintro b₁ - t₁ t₂ h₁ h₂ ⟨q, rfl⟩
  exact ⟨q, Node.decode_append h₁ h₂, rfl⟩

theorem cut_never_counts_array :
    let b := Utf8.encode "[\"T\"]"
    let c : Client := ⟨"localhost:9432", "java", 30000, ⟨5, 200⟩⟩
    let bs := Utf8.encode " [\"success\",[\"T\"],null] \n]"
    (∃ t, Node.decode b = .ok t) ∧ (∃ t, Node.decode (b ++ [0x20]) = .ok t) ∧
      (∃ w, Blank w ∧ b ++ [0x20] = b ++ w) ∧
      Client.Settled (c.once "A.java" (.reply bs)).1 ∧
      ∃ front back m, m ∈ [Mark.closeBracket, Mark.closeBrace] ∧
        Client.FirstLine bs (front ++ m :: Utf8.encode back) ∧ isBlankText back = true ∧
        ∀ p, p <+: bs → p.length ≤ front.length →
          ∃ e, (c.once "A.java" (.reply p)).1 = .error e ∧ e.isTransient = true := by
  intro b c bs
  have hshort : ∃ t, Node.decode b = .ok t := exists_ok_of_isOk (by decide +kernel)
  have hlong : ∃ t, Node.decode (b ++ [0x20]) = .ok t := exists_ok_of_isOk (by decide +kernel)
  have hreply : ∃ t, (c.once "A.java" (.reply bs)).1 = .ok t :=
    exists_ok_of_isOk (by decide +kernel)
  obtain ⟨t₁, h₁⟩ := hshort
  obtain ⟨t₂, h₂⟩ := hlong
  refine ⟨⟨t₁, h₁⟩, ⟨t₂, h₂⟩, ?_, .inl hreply, ?_⟩
  · exact cut_never_counts.2.1 b (b ++ [0x20]) t₁ t₂ h₁ h₂ (List.prefix_append b [0x20])
  · exact cut_never_counts.2.2 c "A.java" bs (.inl hreply)

end SettingCatalog
