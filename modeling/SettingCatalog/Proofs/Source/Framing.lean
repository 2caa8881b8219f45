import Mathlib.Data.List.DropRight
import SettingCatalog.Proofs.Json.Records
import SettingCatalog.Proofs.Json.Unambiguous
import SettingCatalog.Proofs.Source.Truncation
import SettingCatalog.Proofs.Tree.RoundTrip
import SettingCatalog.Source.Stored

/-! Lines on a connection. A request is one line and is read as what was asked for; a tree in an
answer of one line is read as the tree of a file with the same text. -/

namespace SettingCatalog

open Json Text

/-! ### Texts of one line -/

lemma Text.Utf8.lineFeed_mem_encode {s : String} : 0xa ∈ Utf8.encode s ↔ '\n' ∈ s.toList := by
  rw [Utf8.encode, List.mem_flatMap]
  constructor
  · rintro ⟨c, hc, hmem⟩
    have htoNat : c.toNat = 0xa := by
      rcases toNat_of_mem_encodeChar hmem with h | h
      · exact h.symm
      · exact absurd h (by decide)
    have hchar : c = '\n' := by
      rw [← Char.ofNat_toNat c, htoNat]
    exact hchar ▸ hc
  · exact fun h => ⟨'\n', h, by decide⟩

namespace Json

lemma Digits.no_lineFeed {ds : Bytes} (h : Digits ds) : 0xa ∉ ds :=
  fun hmem => absurd (h.2 0xa hmem) (by decide)

lemma Unsigned.no_lineFeed {u : Bytes} (h : Unsigned u) : 0xa ∉ u := by
  cases h with
  | @mk w f e hw hf he =>
    have hfraction : 0xa ∉ f := by
      cases hf with
      | absent => simp
      | given hd => simp [hd.no_lineFeed, Mark.point]
    have hexponent : 0xa ∉ e := by
      cases he with
      | absent => simp
      | @given x sign ds hx hs hd =>
        have hmark : 0xa ≠ x := by
          rintro rfl
          exact absurd hx (by decide)
        have hsign : 0xa ∉ sign := by
          intro hmem
          simp only [List.mem_cons, List.not_mem_nil, or_false] at hs
          rcases hs with rfl | rfl | rfl <;> exact absurd hmem (by decide)
        simp [hmark, hsign, hd.no_lineFeed]
    simp [hw.1.no_lineFeed, hfraction, hexponent]

lemma Numeric.no_lineFeed {m : Bytes} (h : Numeric m) : 0xa ∉ m := by
  cases h with
  | positive hu => exact hu.no_lineFeed
  | negative hu => simp [hu.no_lineFeed, Mark.minus]

lemma escapeChar_no_lineFeed (c : Char) : '\n' ∉ escapeChar c := by
  have hdigits : ∀ d < 16, '\n' ≠ Nat.digitChar d := by decide
  unfold escapeChar
  split_ifs with h₁ h₂ h₃ h₄ h₅ h₆ h₇ h₈
  any_goals decide
  · simp [hdigits (c.toNat / 16) (by omega), hdigits (c.toNat % 16) (by omega)]
  · simpa using Ne.symm h₅

lemma quote_no_lineFeed (s : String) : '\n' ∉ (quote s).toList := by
  simp [quote, escapeChar_no_lineFeed]

lemma compactItems_no_lineFeed {vs : List Value} (h : ∀ v ∈ vs, '\n' ∉ v.compact.toList) :
    '\n' ∉ (Value.compactItems vs).toList := by
  induction vs with
  | nil => simp [Value.compactItems]
  | cons v vs ih =>
    have hv := h v List.mem_cons_self
    have hvs := ih fun u hu => h u (List.mem_cons_of_mem v hu)
    cases vs with
    | nil => exact hv
    | cons u vs => simp [Value.compactItems, hv, hvs]

lemma compactMembers_no_lineFeed {ms : List (String × Value)}
    (h : ∀ p ∈ ms, '\n' ∉ p.2.compact.toList) : '\n' ∉ (Value.compactMembers ms).toList := by
  induction ms with
  | nil => simp [Value.compactMembers]
  | cons p ms ih =>
    have hp := h p List.mem_cons_self
    have hms := ih fun q hq => h q (List.mem_cons_of_mem p hq)
    cases ms with
    | nil => simp [Value.compactMembers, quote_no_lineFeed, hp]
    | cons q ms => simp [Value.compactMembers, quote_no_lineFeed, hp, hms]

theorem Proper.no_lineFeed {v : Value} (h : Proper v) : '\n' ∉ v.compact.toList := by
  induction h with
  | null => simp [Value.compact, Value.scalar]
  | bool b => cases b <;> simp [Value.compact, Value.scalar]
  | number hn => exact mt Utf8.lineFeed_mem_encode.mpr hn.no_lineFeed
  | text s => exact quote_no_lineFeed s
  | array _ ih => simp [Value.compact, compactItems_no_lineFeed ih]
  | object _ ih => simp [Value.compact, compactMembers_no_lineFeed ih]

/-! ### Steps of a loop -/

section Steps

variable {σ : Type} {close : UInt8} {item : Stateful σ} {s s' : σ} {rest rest' rounds : Bytes}

lemma items_first {b : UInt8} (hr : 0 < rounds.length) (hb : isSpace b = false) (hc : b ≠ close)
    (h : item s (b :: rest) = .ok (s', rest')) :
    items close item rounds true s (b :: rest) = items close item rounds.tail false s' rest' := by
  cases rounds with
  | nil => simp at hr
  | cons r rounds =>
    rw [items, skipSpace, List.dropWhile_cons_of_neg (by simp [hb])]
    simp [hc, h, bind, Except.bind]

lemma items_next (hr : 0 < rounds.length) (hc : Mark.comma ≠ close)
    (h : item s rest = .ok (s', rest')) :
    items close item rounds false s (Mark.comma :: rest) =
      items close item rounds.tail false s' rest' := by
  cases rounds with
  | nil => simp at hr
  | cons r rounds =>
    rw [items, skipSpace, List.dropWhile_cons_of_neg (by decide)]
    simp [hc, h, bind, Except.bind]

lemma text_quoted {k : String} {t : Bytes} (h : Quoted k.toList t) (rest : Bytes) :
    text (Mark.quote :: (t ++ Mark.quote :: rest)) = .ok (k, rest) := by
  rw [text, skipSpace, List.dropWhile_cons_of_neg (by decide)]
  exact h.stringTail rest

def Schema.readMember (r : Schema σ) : Stateful σ := fun s bs => do
  let (x, rest) ← memberName (r.fieldName s) bs
  Schema.member x s rest

lemma readMember_quoted {r : Schema σ} {f : RecordField σ} {k : String} {t tail : Bytes}
    (ht : Quoted k.toList t) (hk : Slots.key r s k = .ok (some f))
    (hf : f.read s tail = .ok (s', rest')) :
    r.readMember s (Mark.quote :: (t ++ Mark.quote :: Mark.colon :: tail)) = .ok (s', rest') := by
  have hquote : isSpace Mark.quote = false := rfl
  have hcolon : isSpace Mark.colon = false := rfl
  simp [Schema.readMember, memberName, skipSpace, hquote, hcolon, Slots.fieldName_eq r s ht, hk,
    Except.map, bind, Except.bind, Schema.member, hf]

end Steps

lemma Schema.read_skipSpace {σ : Type} (r : Schema σ) (empty : σ) (bs : Bytes) :
    r.read empty (skipSpace bs) = r.read empty bs := by
  have hskip : skipSpace (skipSpace bs) = skipSpace bs := List.dropWhile_idempotent ..
  rw [Schema.read, Schema.read, hskip]

lemma Schema.read_opens {σ : Type} {r : Schema σ} {empty : σ} {bs : Bytes} {x : σ × Bytes}
    (h : r.read empty bs = .ok x) :
    ∃ b rest, skipSpace bs = b :: rest ∧ b ∈ [Mark.openBracket, Mark.openBrace] := by
  rw [Schema.read] at h
  cases hs : skipSpace bs with
  | nil =>
    rw [hs] at h
    cases h
  | cons b rest =>
    refine ⟨b, rest, rfl, ?_⟩
    rw [hs] at h
    by_contra hb
    simp only [List.mem_cons, List.not_mem_nil, or_false, not_or] at hb
    simp [hb.1, hb.2, wrongKind_ne_ok] at h

end Json

/-! ### Answers with a tree -/

lemma Node.nullable_read {d : ℕ} {bs rest : Bytes} {n : Node}
    (h : Node.read d bs = .ok (n, rest)) : nullable (Node.read d) bs = .ok (some n, rest) := by
  cases d with
  | zero => cases h
  | succ d =>
    have hskip : Node.read (d + 1) (skipSpace bs) = .ok (n, rest) := by
      rw [Node.read, Schema.read_skipSpace]
      exact h
    obtain ⟨x, hx, -⟩ := ok_of_bind.mp h
    obtain ⟨b, tl, hb, hopen⟩ := Schema.read_opens hx
    rw [hb] at hskip
    have hnull : (b == Mark.lowerN) = false := by
      rw [beq_eq_false_iff_ne]
      rintro rfl
      exact absurd hopen (by decide)
    rw [nullable, hb]
    simp [hnull, hskip, bind, Except.bind, pure, Except.pure]

namespace Response

def opening : String := "\x7b\"status\":\"success\",\"data\":"

def line (b : String) : String := opening ++ b ++ "\x7d\n"

lemma encode_opening : Utf8.encode opening =
    Mark.openBrace :: Mark.quote :: (Utf8.encode "status" ++ Mark.quote :: Mark.colon ::
      Mark.quote :: (Utf8.encode "success" ++ Mark.quote :: Mark.comma ::
        Mark.quote :: (Utf8.encode "data" ++ Mark.quote :: [Mark.colon]))) := by
  decide

lemma readMember_status (d : ℕ) (rest : Bytes) :
    (schema (Node.read d)).readMember ⟨none, none, none⟩
      (Mark.quote :: (Utf8.encode "status" ++ Mark.quote :: Mark.colon ::
        Mark.quote :: (Utf8.encode "success" ++ Mark.quote :: rest))) =
      .ok (⟨some "success", none, none⟩, rest) := by
  have hstatus : Quoted "status".toList (Utf8.encode "status") := quoted_escape _
  have hsuccess : Quoted "success".toList (Utf8.encode "success") := quoted_escape _
  have hkey : Slots.key (schema (Node.read d)) ⟨none, none, none⟩ "status" =
      .ok (some (.required "status" [] text (·.status)
        fun d v => { d with status := some v })) := rfl
  apply readMember_quoted hstatus hkey
  simp [RecordField.required, text_quoted hsuccess, bind, Except.bind, pure, Except.pure]

lemma readMember_data {d : ℕ} {bs rest : Bytes} {n : Node} (h : Node.read d bs = .ok (n, rest)) :
    (schema (Node.read d)).readMember ⟨some "success", none, none⟩
      (Mark.quote :: (Utf8.encode "data" ++ Mark.quote :: Mark.colon :: bs)) =
      .ok (⟨some "success", some (some n), none⟩, rest) := by
  have hdata : Quoted "data".toList (Utf8.encode "data") := quoted_escape _
  have hkey : Slots.key (schema (Node.read d)) ⟨some "success", none, none⟩ "data" =
      .ok (some (.electiveMember "data" (nullable (Node.read d)) (·.data)
        fun d v => { d with data := some v })) := rfl
  apply readMember_quoted hdata hkey
  simp [RecordField.electiveMember, RecordField.required, Node.nullable_read h, bind, Except.bind,
    pure, Except.pure]

theorem read_opening {d : ℕ} {bs w tail : Bytes} {n : Node}
    (h : Node.read d bs = .ok (n, w ++ Mark.closeBrace :: tail)) (hw : Blank w) :
    Response.read d (Utf8.encode opening ++ bs) = .ok (⟨"success", some n, none⟩, tail) := by
  have hcomma : Mark.comma ≠ Mark.closeBrace := by decide
  have hmembers (rounds : Bytes) (hr : 2 < rounds.length) :
      members (schema (Node.read d)).fieldName Schema.member rounds true ⟨none, none, none⟩
        (Mark.quote :: (Utf8.encode "status" ++ Mark.quote :: Mark.colon ::
          Mark.quote :: (Utf8.encode "success" ++ Mark.quote :: Mark.comma ::
            Mark.quote :: (Utf8.encode "data" ++ Mark.quote :: Mark.colon :: bs)))) =
        .ok (⟨some "success", some (some n), none⟩, tail) := by
    rw [members_eq_items]
    change items Mark.closeBrace (schema (Node.read d)).readMember rounds true _ _ = _
    rw [items_first (by omega) (by decide) (by decide) (readMember_status d _),
      items_next (by simp; omega) hcomma (readMember_data h),
      items_close (by simp) hw (by simp; omega)]
  have hmissing :
      (schema (Node.read d)).missing? ⟨some "success", some (some n), none⟩ = none := rfl
  have hbrace : isSpace Mark.openBrace = false := rfl
  have hbracket : (Mark.openBrace == Mark.openBracket) = false := rfl
  rw [Response.read, Schema.read, encode_opening]
  simp only [List.cons_append, List.append_assoc, List.nil_append, skipSpace]
  rw [List.dropWhile_cons_of_neg (by simp [hbrace])]
  simp only [hbracket, Bool.false_eq_true, if_false, beq_self_eq_true, if_true]
  rw [hmembers _ (by simp; omega)]
  simp [hmissing, bind, Except.bind, pure, Except.pure]

theorem decode_opening {b : String} {n : Node} (h : Node.parse (Utf8.encode b) = .ok n) :
    Response.decode (Utf8.encode (opening ++ b ++ "\x7d")) = .ok ⟨"success", some n, none⟩ := by
  have hclose : Utf8.encode "\x7d" = [Mark.closeBrace] := by decide
  obtain ⟨w, hread, hw⟩ := whole_eq_ok.mp h
  rw [Utf8.encode_append, Utf8.encode_append, hclose, List.append_assoc]
  apply whole_eq_ok.mpr
  refine ⟨[], ?_, Blank.nil⟩
  apply read_opening _ hw
  have hle : (Utf8.encode b).length + 1 ≤
      (Utf8.encode opening ++ (Utf8.encode b ++ [Mark.closeBrace])).length + 1 := by
    simp only [List.length_append]
    omega
  obtain ⟨-, m, rfl, hkept⟩ := Node.read_growing [Mark.closeBrace] (Utf8.encode b) hle n w hread
  exact hkept trivial

lemma trim_line (b : String) : trim (line b) = opening ++ b ++ "\x7d" := by
  have hopening : opening.toList = '\x7b' :: opening.toList.tail := by decide
  have hline :
      (line b).toList = '\x7b' :: (opening.toList.tail ++ b.toList ++ '\x7d' :: ['\n']) := by
    rw [line, String.toList_append, String.toList_append, hopening]
    simp
  have hblank : ∀ x ∈ ['\n'], isBlank x = true := by
    intro x hx
    rw [List.mem_singleton.mp hx]
    decide
  apply String.toList_injective
  rw [trim_of_ends hline (by decide) (by decide) hblank, String.toList_append,
    String.toList_append, hopening]
  simp

lemma firstLine_line {b : String} (h : '\n' ∉ b.toList) :
    Client.FirstLine (Utf8.encode (line b)) (Utf8.encode (line b)) := by
  have hend : Utf8.encode (line b) = Utf8.encode (opening ++ b ++ "\x7d") ++ [0xa] := by
    have hfeed : Utf8.encode "\x7d\n" = Utf8.encode "\x7d" ++ [0xa] := by decide
    simp [line, Utf8.encode_append, hfeed]
  have hno : 0xa ∉ Utf8.encode (opening ++ b ++ "\x7d") := by
    have hopening : '\n' ∉ opening.toList := by decide
    rw [Utf8.lineFeed_mem_encode]
    simp [hopening, h]
  rw [hend]
  exact .ended hno

end Response

namespace Client

variable {c : Client} {path : String}

lemma classify_line {b : String} {t : Node} (h : '\n' ∉ b.toList)
    (ht : Node.decode (Utf8.encode b) = .ok t) :
    c.classify path (Utf8.encode (Response.line b)) = .ok t := by
  obtain ⟨n, hn, rfl⟩ := Node.decode_eq_ok.mp ht
  have hspoken : Spoken (Utf8.encode (Response.line b)) (Response.line b) := by
    refine ⟨fun hnil => ?_, Response.firstLine_line h⟩
    have hmem : 0xa ∈ Utf8.encode (Response.line b) := by
      rw [Utf8.lineFeed_mem_encode]
      simp [Response.line]
    rw [hnil] at hmem
    cases hmem
  apply classify_verdict
  apply Verdict.tree hspoken
  rw [Response.trim_line]
  exact Response.decode_opening hn

lemma ask_line {fs : FileSystem} {network : Network} {content b : String} {t : Node}
    (hend : Endpoint.fault? c.endpoint = none) (htime : c.timeout ≠ 0)
    (hcontent : fs.readText path = .ok content) (hb : '\n' ∉ b.toList)
    (ht : Node.decode (Utf8.encode b) = .ok t)
    (hreply : network 0 = .reply (Utf8.encode (Response.line b))) :
    c.ask fs network path = ⟨.ok t, 1, [c.request path content], []⟩ := by
  have honce : c.once path (network 0) = (.ok t, true) := by
    rw [hreply, once, if_neg htime, classify_line hb ht]
  have hreach : c.reach network = network := by rw [reach, hend]
  rw [ask, hcontent]
  dsimp only
  rw [hreach, attempts, honce]
  rfl

/-! ### Requests -/

lemma proper_requestValue (c : Client) (path content : String) :
    Proper (c.requestValue path content) := by
  refine .object ?_
  simp only [List.forall_mem_cons, List.not_mem_nil, false_imp_iff, implies_true, and_true]
  refine ⟨.text _, .object ?_⟩
  simp only [List.forall_mem_cons, List.not_mem_nil, false_imp_iff, implies_true, and_true]
  exact ⟨.text _, .text _, .text _⟩

lemma encode_request (c : Client) (path content : String) :
    Utf8.encode (c.request path content) =
      Utf8.encode (c.requestValue path content).compact ++ [0xa] := by
  have hfeed : Utf8.encode "\n" = [0xa] := by decide
  rw [request, Utf8.encode_append, hfeed]

lemma document_request_iff {v : Value} (c : Client) (path content : String) :
    Document v (Utf8.encode (c.request path content)) ↔ v = c.requestValue path content := by
  have hdocument : Document (c.requestValue path content)
      (Utf8.encode (c.request path content)) := by
    have hblank : Blank [0xa] := by simp [Blank, isSpace]
    have hspells := Document.mk Blank.nil (c.proper_requestValue path content).spells hblank
    rw [List.nil_append, ← encode_request] at hspells
    exact hspells
  constructor
  · exact fun h => h.unique hdocument
  · rintro rfl
    exact hdocument

lemma eq_of_mem_requests {fs : FileSystem} {network : Network} {l : String}
    (h : l ∈ (c.ask fs network path).requests) :
    ∃ content, fs.readText path = .ok content ∧ l = c.request path content := by
  cases hcontent : fs.readText path with
  | error e =>
    rw [ask, hcontent] at h
    cases h
  | ok content =>
    obtain ⟨k, -, hk⟩ := attempts_stops c path (c.request path content) (c.reach network)
      c.retry.retries.toNat 0
    rw [ask, hcontent] at h
    dsimp only at h
    rw [hk, exchange, List.mem_flatMap] at h
    obtain ⟨i, -, hi⟩ := h
    split at hi
    · exact ⟨content, rfl, List.mem_singleton.mp hi⟩
    · cases hi

end Client

lemma readTreeFile_eq_ok {fs : FileSystem} {file : String} {bs : Bytes} {modified : Int}
    (h : fs.find file = .ok (.file bs modified)) {t : Node} :
    readTreeFile fs file = .ok t ↔ Node.decode bs = .ok t := by
  rw [readTreeFile, h]
  dsimp only [decodeFile]
  cases Node.decode bs <;> simp

/-- A tree in an answer is the tree of the file with the same text, and a tree is written on one
line. What is sent is one line, and can be read as what was asked for and as nothing else. -/
theorem framing_agrees :
    (∀ (c : Client) (fs : FileSystem) (network : Network) (traffic : Client.Traffic)
        (path content file b : String) (modified : Int) (t : Node),
      '\n' ∉ b.toList → fs.find file = .ok (.file (Utf8.encode b) modified) →
      readTreeFile fs file = .ok t → fs.readText path = .ok content →
      Endpoint.fault? c.endpoint = none → c.timeout ≠ 0 →
      network traffic.contacts = .reply (Utf8.encode (Response.line b)) →
      c.acquire fs network path traffic =
        (.ok t, ⟨traffic.contacts + 1, traffic.requests ++ [c.request path content]⟩)) ∧
    (∀ n : Node, '\n' ∉ n.encode.toList ∧
      ∀ (fs : FileSystem) (file : String) (modified : Int),
        fs.find file = .ok (.file (Utf8.encode n.encode) modified) →
        readTreeFile fs file = .ok n.normalize) ∧
    (∀ (c : Client) (fs : FileSystem) (network : Network) (path l : String),
      l ∈ (c.ask fs network path).requests →
      ∃ content, fs.readText path = .ok content ∧ l = c.request path content) ∧
    ∀ (c : Client) (path content : String),
      (∃ body, Utf8.encode (c.request path content) = body ++ [0xa] ∧ 0xa ∉ body) ∧
      ∀ v, Document v (Utf8.encode (c.request path content)) ↔
        v = .object
          [("command", .text "PARSE"),
            ("params", .object [("path", .text path), ("language", .text c.language),
              ("content", .text content)])] := by
  refine ⟨?_, ?_, fun c fs network path l => Client.eq_of_mem_requests, fun c path content => ?_⟩
  · intro c fs network traffic path content file b modified t hb hfile ht hcontent hend htime hreply
    have hdecode := (readTreeFile_eq_ok hfile).mp ht
    have hask : c.ask fs (fun i => network (traffic.contacts + i)) path = _ :=
      Client.ask_line hend htime hcontent hb hdecode hreply
    rw [Client.acquire, hask]
  · intro n
    refine ⟨n.proper_toJson.no_lineFeed, fun fs file modified hfile => ?_⟩
    exact (readTreeFile_eq_ok hfile).mpr n.decode_encodeBytes
  · refine ⟨⟨_, c.encode_request path content, ?_⟩, fun v => c.document_request_iff path content⟩
    rw [Utf8.lineFeed_mem_encode]
    exact (c.proper_requestValue path content).no_lineFeed

/-- The source has a line break in it, and the tree is found in its file and on the connection. -/
theorem framing_agrees_lineBreak :
    let c : Client := ⟨"localhost:9432", "java", 30000, ⟨5, 200⟩⟩
    let n := Node.ofTag "A\n\"B\""
    let fs : FileSystem := ⟨.folder [("A.java", .file (Utf8.encode "class A \x7b\n\x7d") 0),
      ("A.json", .file (Utf8.encode n.encode) 0)], []⟩
    let network := Network.scripted [.reply (Utf8.encode (Response.line n.encode))]
    readTreeFile fs "A.json" = .ok n.normalize ∧
      c.acquire fs network "A.java" ⟨0, []⟩ =
        (.ok n.normalize, ⟨1, [c.request "A.java" "class A \x7b\n\x7d"]⟩) := by
  intro c n fs network
  have hsource : fs.find "A.java" = .ok (.file (Utf8.encode "class A \x7b\n\x7d") 0) :=
    FileSystem.find_here (by decide) (by decide) (by decide) (by decide) (by decide) rfl
  have hfile : fs.find "A.json" = .ok (.file (Utf8.encode n.encode) 0) :=
    FileSystem.find_here (by decide) (by decide) (by decide) (by decide) (by decide) rfl
  have hsplit : Endpoint.split? c.endpoint = some ("localhost", "9432") := by decide +kernel
  have hend : Endpoint.fault? c.endpoint = none :=
    Endpoint.fault?_eq_none hsplit (by decide) (by decide)
  obtain ⟨hline, hread⟩ := framing_agrees.2.1 n
  have htree := hread fs "A.json" 0 hfile
  refine ⟨htree, ?_⟩
  exact framing_agrees.1 c fs network ⟨0, []⟩ "A.java" _ "A.json" n.encode 0 n.normalize hline hfile
    htree (FileSystem.readText_of_find hsource) hend (by decide) rfl

end SettingCatalog
