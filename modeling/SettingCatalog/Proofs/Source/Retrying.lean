import Mathlib.Data.List.TakeWhile
import SettingCatalog.Proofs.Text.Utf8
import SettingCatalog.Source.Service

/-! How often a service is asked. A contact has one meaning, which the first line of the reply
decides. Asking stops at the first contact that gives a tree or a rejection, or when no repetition
is left. -/

namespace SettingCatalog

open Text

/-! ### Files and endpoints by name -/

lemma FileSystem.find_here {items : List (String × Item)} {name : String} {bs : Bytes}
    {modified : Int} (hnul : '\x00' ∉ name.toList) (hsize : name.utf8ByteSize ≤ nameLimit)
    (hsegs : FilePath.segments name = [name]) (hidle : FilePath.isIdle name = false)
    (hup : name ≠ "..") (hfile : items.lookup name = some (.file bs modified)) :
    (⟨.folder items, []⟩ : FileSystem).find name = .ok (.file bs modified) := by
  have hempty : name ≠ "" := by
    rintro rfl
    cases hidle
  have hfault : pathFault? name = none := by
    have hlimit : nameLimit < pathLimit := by decide
    simp [pathFault?, hnul, hempty, Nat.not_le.mpr (Nat.lt_of_le_of_lt hsize hlimit)]
  simp [find, locate, hfault, hsegs, origin, resolve, maxLinks, descend, Item.at?, hidle, hup,
    Nat.not_lt.mpr hsize, hfile, bind, Except.bind, pure, Except.pure]

lemma FileSystem.readText_of_find {fs : FileSystem} {path s : String} {modified : Int}
    (h : fs.find path = .ok (.file (Utf8.encode s) modified)) : fs.readText path = .ok s := by
  simp [readText, read, h, Utf8.decode?_encode, bind, Except.bind, pure, Except.pure]

lemma Endpoint.fault?_eq_none {endpoint host port : String}
    (hsplit : split? endpoint = some (host, port)) (hport : isPort port = true)
    (hnul : '\x00' ∉ host.toList) : fault? endpoint = none := by
  simp [fault?, hsplit, hport, hnul]

namespace Client

/-! ### What a contact means -/

inductive FirstLine : Bytes → Bytes → Prop
  | unended {bs : Bytes} : 0xa ∉ bs → FirstLine bs bs
  | ended {line rest : Bytes} : 0xa ∉ line → FirstLine (line ++ 0xa :: rest) (line ++ [0xa])

lemma ne_lineFeed {line : Bytes} (h : 0xa ∉ line) : ∀ b ∈ line, (b != 0xa) = true := by
  intro b hb
  rw [bne_iff_ne]
  rintro rfl
  exact h hb

lemma firstLine_iff {bs line : Bytes} : FirstLine bs line ↔ firstLine bs = line := by
  constructor
  · intro h
    cases h with
    | unended hno =>
      rw [firstLine, List.takeWhile_eq_self_iff.mpr (ne_lineFeed hno),
        List.dropWhile_eq_nil_iff.mpr (ne_lineFeed hno), List.take_nil, List.append_nil]
    | ended hno =>
      rw [firstLine, List.takeWhile_append_of_pos (ne_lineFeed hno),
        List.dropWhile_append_of_pos (ne_lineFeed hno)]
      simp
  · rintro rfl
    have hsplit := List.takeWhile_append_dropWhile (p := (· != 0xa)) (l := bs)
    have hno : 0xa ∉ bs.takeWhile (· != 0xa) := by
      intro hmem
      simpa using List.mem_takeWhile_imp hmem
    rw [firstLine]
    cases hd : bs.dropWhile (· != 0xa) with
    | nil =>
      rw [hd, List.append_nil] at hsplit
      rw [List.take_nil, List.append_nil, hsplit]
      exact .unended (hsplit ▸ hno)
    | cons b rest =>
      obtain rfl : b = 0xa := by
        have hb := List.head_dropWhile_not (· != (0xa : UInt8)) (l := bs) (by simp [hd])
        simpa [hd] using hb
      rw [hd] at hsplit
      have hended : FirstLine (bs.takeWhile (· != 0xa) ++ 0xa :: rest) _ := .ended hno
      rw [hsplit] at hended
      exact hended

def Spoken (bs : Bytes) (line : String) : Prop := bs ≠ [] ∧ FirstLine bs (Utf8.encode line)

inductive Verdict (endpoint path : String) : Contact → Except TreeError Node → Prop
  | unreachable {cause : OsError} :
      Verdict endpoint path (.unreachable cause) (.error (.unreachable endpoint cause))
  | silent {cause : OsError} :
      Verdict endpoint path (.silent cause) (.error (.unreachable endpoint cause))
  | closed : Verdict endpoint path (.reply []) (.error (.protocol .closed))
  | garbled {bs line : Bytes} : FirstLine bs line → (∀ s, line ≠ Utf8.encode s) →
      Verdict endpoint path (.reply bs) (.error (.unreachable endpoint .invalidUtf8))
  | undecodable {bs : Bytes} {line : String} {fault : Json.Fault} : Spoken bs line →
      Response.decode (Utf8.encode (trim line)) = .error fault →
      Verdict endpoint path (.reply bs) (.error (.protocol (.invalidResponse fault)))
  | dataless {bs : Bytes} {line : String} {message : Option String} : Spoken bs line →
      Response.decode (Utf8.encode (trim line)) = .ok ⟨"success", none, message⟩ →
      Verdict endpoint path (.reply bs) (.error (.protocol .successWithoutData))
  | tree {bs : Bytes} {line : String} {tree : Node} {message : Option String} : Spoken bs line →
      Response.decode (Utf8.encode (trim line)) = .ok ⟨"success", some tree, message⟩ →
      Verdict endpoint path (.reply bs) (.ok tree.normalize)
  | rejected {bs : Bytes} {line status : String} {data : Option Node} {message : Option String} :
      Spoken bs line → Response.decode (Utf8.encode (trim line)) = .ok ⟨status, data, message⟩ →
      status ≠ "success" →
      Verdict endpoint path (.reply bs)
        (.error (.rejected path (message.getD ("status " ++ status))))

variable {c : Client} {path : String}

section Spoken

variable {bs : Bytes} {line : String} (h : Spoken bs line)

include h

lemma classify_of_fault {fault : Json.Fault}
    (hd : Response.decode (Utf8.encode (trim line)) = .error fault) :
    c.classify path bs = .error (.protocol (.invalidResponse fault)) := by
  obtain ⟨hne, hline⟩ := h
  simp [classify, hne, firstLine_iff.mp hline, Utf8.decode?_encode, hd]

lemma classify_of_response {r : Response}
    (hd : Response.decode (Utf8.encode (trim line)) = .ok r) :
    c.classify path bs = judge path r := by
  obtain ⟨hne, hline⟩ := h
  simp [classify, hne, firstLine_iff.mp hline, Utf8.decode?_encode, hd]

end Spoken

lemma classify_verdict {bs : Bytes} {r : Except TreeError Node}
    (h : Verdict c.endpoint path (.reply bs) r) : c.classify path bs = r := by
  cases h with
  | closed => rfl
  | garbled hline hno =>
    have hne : bs ≠ [] := by
      rintro rfl
      rw [firstLine_iff] at hline
      exact hno "" hline.symm
    have hnone : Utf8.decode? (firstLine bs) = none := by
      rw [firstLine_iff.mp hline, Option.eq_none_iff_forall_ne_some]
      exact fun s hs => hno s (Utf8.decode?_eq_some_iff.mp hs)
    rw [classify, if_neg (by simpa using hne), hnone]
  | undecodable hs hd => exact classify_of_fault hs hd
  | dataless hs hd => exact classify_of_response hs hd
  | tree hs hd => exact classify_of_response hs hd
  | rejected hs hd hstatus =>
    rw [classify_of_response hs hd]
    exact if_neg hstatus

lemma verdict_classify (c : Client) (path : String) (bs : Bytes) :
    Verdict c.endpoint path (.reply bs) (c.classify path bs) := by
  by_cases hne : bs = []
  · subst hne
    exact .closed
  cases htext : Utf8.decode? (firstLine bs) with
  | none =>
    have hclass : c.classify path bs = .error (.unreachable c.endpoint .invalidUtf8) := by
      rw [classify, if_neg (by simpa using hne), htext]
    rw [hclass]
    apply Verdict.garbled (firstLine_iff.mpr rfl)
    intro s hs
    rw [Utf8.decode?_eq_some_iff.mpr hs] at htext
    cases htext
  | some line =>
    have hs : Spoken bs line := ⟨hne, firstLine_iff.mpr (Utf8.decode?_eq_some_iff.mp htext)⟩
    cases hd : Response.decode (Utf8.encode (trim line)) with
    | error fault =>
      rw [classify_of_fault hs hd]
      exact .undecodable hs hd
    | ok r =>
      obtain ⟨status, data, message⟩ := r
      rw [classify_of_response hs hd, judge]
      split
      · rename_i hstatus
        subst hstatus
        cases data with
        | none => exact .dataless hs hd
        | some tree => exact .tree hs hd
      · rename_i hstatus
        exact .rejected hs hd hstatus

lemma verdict_reply_iff {bs : Bytes} {r : Except TreeError Node} :
    Verdict c.endpoint path (.reply bs) r ↔ r = c.classify path bs := by
  constructor
  · exact fun h => (classify_verdict h).symm
  · rintro rfl
    exact verdict_classify c path bs

/-! ### What a client meets -/

end Client

def Contact.connects : Contact → Bool
  | .unreachable _ => false
  | _ => true

namespace Client

/-- The contact as the client meets it: no connection is used that cannot be given a time limit. -/
def contact (c : Client) (network : Network) (i : ℕ) : Contact :=
  match c.reach network i with
  | .unreachable cause => .unreachable cause
  | met => if c.timeout = 0 then .unreachable .zeroTimeout else met

variable {c : Client} {path : String}

lemma contact_eq (hend : Endpoint.fault? c.endpoint = none) (htime : c.timeout ≠ 0)
    (network : Network) (i : ℕ) : c.contact network i = network i := by
  have hreach : c.reach network = network := by rw [reach, hend]
  rw [contact, hreach]
  cases network i with
  | unreachable cause => rfl
  | silent cause => exact if_neg htime
  | reply bs => exact if_neg htime

lemma once_contact (c : Client) (path : String) (network : Network) (i : ℕ) :
    (c.once path (c.reach network i)).2 = (c.contact network i).connects ∧
    ∀ r, Verdict c.endpoint path (c.contact network i) r ↔
      r = (c.once path (c.reach network i)).1 := by
  have hlost : ∀ cause r, Verdict c.endpoint path (.unreachable cause) r ↔
      r = .error (.unreachable c.endpoint cause) := by
    intro cause r
    constructor
    · rintro ⟨⟩
      rfl
    · rintro rfl
      exact .unreachable
  have hsilent : ∀ cause r, Verdict c.endpoint path (.silent cause) r ↔
      r = .error (.unreachable c.endpoint cause) := by
    intro cause r
    constructor
    · rintro ⟨⟩
      rfl
    · rintro rfl
      exact .silent
  rw [contact]
  by_cases htime : c.timeout = 0
  · cases c.reach network i <;> simp [once, htime, Contact.connects, hlost]
  · cases c.reach network i <;>
      simp [once, htime, Contact.connects, hlost, hsilent, verdict_reply_iff]

/-! ### Asking again -/

def Settled (r : Except TreeError Node) : Prop :=
  (∃ tree, r = .ok tree) ∨ ∃ path message, r = .error (.rejected path message)

lemma Verdict.settled_iff {endpoint : String} {met : Contact} {r : Except TreeError Node}
    (h : Verdict endpoint path met r) : Settled r ↔ ∀ e, r = .error e → e.isTransient = false := by
  cases h <;> simp [Settled, TreeError.isTransient]

variable (c path) (line : String) (network : Network)

/-- What is left of the repetitions decides together with the contacts: `k` more are used up. -/
structure Stops (attempt left k : ℕ) : Prop where
  le : k ≤ left
  transient : ∀ i < k, ∃ e, (c.once path (network (attempt + i))).1 = .error e ∧
    e.isTransient = true
  last : k = left ∨
    ∀ e, (c.once path (network (attempt + k))).1 = .error e → e.isTransient = false

def exchange (attempt k : ℕ) : Exchange where
  result := (c.once path (network (attempt + k))).1
  contacts := k + 1
  requests := (List.range (k + 1)).flatMap fun i =>
    if (c.once path (network (attempt + i))).2 then [line] else []
  waits := (List.range k).map fun i => c.retry.backoff (UInt32.ofNat (attempt + i))

lemma exchange_zero (attempt : ℕ) :
    c.exchange path line network attempt 0 =
      ⟨(c.once path (network attempt)).1, 1,
        if (c.once path (network attempt)).2 then [line] else [], []⟩ := by
  simp [exchange]

lemma exchange_succ (attempt k : ℕ) :
    c.exchange path line network attempt (k + 1) =
      let later := c.exchange path line network (attempt + 1) k
      { later with
        contacts := later.contacts + 1
        requests := (if (c.once path (network attempt)).2 then [line] else []) ++ later.requests
        waits := c.retry.backoff (UInt32.ofNat attempt) :: later.waits } := by
  have hshift (i : ℕ) : attempt + (i + 1) = attempt + 1 + i := by omega
  have hwaits : (List.range (k + 1)).map (fun i => c.retry.backoff (UInt32.ofNat (attempt + i))) =
      c.retry.backoff (UInt32.ofNat attempt) ::
        (List.range k).map fun i => c.retry.backoff (UInt32.ofNat (attempt + 1 + i)) := by
    rw [List.range_succ_eq_map, List.map_cons, List.map_map, Nat.add_zero, List.cons.injEq]
    refine ⟨rfl, List.map_congr_left fun i _ => ?_⟩
    rw [← hshift, Function.comp_apply]
  have hrequests : (List.range (k + 1 + 1)).flatMap (fun i =>
        if (c.once path (network (attempt + i))).2 then [line] else []) =
      (if (c.once path (network attempt)).2 then [line] else []) ++
        (List.range (k + 1)).flatMap fun i =>
          if (c.once path (network (attempt + 1 + i))).2 then [line] else [] := by
    rw [List.range_succ_eq_map, List.flatMap_cons, List.flatMap_map]
    congr 2
    funext i
    rw [← hshift]
  dsimp only [exchange]
  rw [hwaits, hrequests, hshift]

theorem attempts_stops (left attempt : ℕ) :
    ∃ k, Stops c path network attempt left k ∧
      c.attempts path line network left attempt = c.exchange path line network attempt k := by
  induction left generalizing attempt with
  | zero =>
    refine ⟨0, ⟨Nat.le_refl 0, by simp, .inl rfl⟩, ?_⟩
    rw [exchange_zero, attempts]
    cases c.once path (network attempt) with
    | mk result sent => cases result <;> rfl
  | succ left ih =>
    have hstop : (∀ e, (c.once path (network attempt)).1 = .error e → e.isTransient = false) →
        Stops c path network attempt (left + 1) 0 :=
      fun h => ⟨Nat.zero_le _, by simp, .inr h⟩
    rw [attempts]
    dsimp only
    cases hr : (c.once path (network attempt)).1 with
    | ok tree =>
      refine ⟨0, hstop (by simp [hr]), ?_⟩
      rw [exchange_zero, hr]
    | error e =>
      cases ht : e.isTransient with
      | false =>
        refine ⟨0, hstop (by simp [hr, ht]), ?_⟩
        rw [exchange_zero, hr]
        simp [ht]
      | true =>
        obtain ⟨k, hk, heq⟩ := ih (attempt + 1)
        refine ⟨k + 1, ?_, ?_⟩
        · refine ⟨Nat.succ_le_succ hk.le, fun i hi => ?_, ?_⟩
          · cases i with
            | zero => exact ⟨e, hr, ht⟩
            | succ i =>
              rw [show attempt + (i + 1) = attempt + 1 + i by omega]
              exact hk.transient i (by omega)
          · rw [show attempt + (k + 1) = attempt + 1 + k by omega]
            exact hk.last.imp (congrArg Nat.succ) id
        · rw [exchange_succ, ← heq]
          simp [ht]

/-- A file that is no text is not sent. For any other, the contacts end with the first one that
gives a tree or a rejection, or with the last one allowed, and its meaning is the result. There is a
wait before each repetition, and every connection carries the same line. -/
theorem ask_retries (c : Client) (fs : FileSystem) (network : Network) (path : String) :
    (∀ e, fs.readText path = .error e →
      c.ask fs network path = ⟨.error (.unreadable path e), 0, [], []⟩) ∧
    (Endpoint.fault? c.endpoint = none → c.timeout ≠ 0 → ∀ i, c.contact network i = network i) ∧
    ∀ content, fs.readText path = .ok content →
      ∃ verdict : ℕ → Except TreeError Node,
        (∀ i r, Verdict c.endpoint path (c.contact network i) r ↔ r = verdict i) ∧
        ∃ k ≤ c.retry.retries.toNat, (∀ i < k, ¬ Settled (verdict i)) ∧
          (k = c.retry.retries.toNat ∨ Settled (verdict k)) ∧
          c.ask fs network path =
            { result := verdict k
              contacts := k + 1
              requests := (List.range (k + 1)).flatMap fun i =>
                if (c.contact network i).connects then [c.request path content] else []
              waits := (List.range k).map fun i => c.retry.backoff (UInt32.ofNat i) } := by
  refine ⟨fun e he => by rw [ask, he], fun hend htime => contact_eq hend htime network, ?_⟩
  intro content hcontent
  have hmeets := once_contact c path network
  have hsettled := fun i => (((hmeets i).2 _).mpr rfl).settled_iff
  obtain ⟨k, hk, heq⟩ := attempts_stops c path (c.request path content) (c.reach network)
    c.retry.retries.toNat 0
  refine ⟨fun i => (c.once path (c.reach network i)).1, fun i => (hmeets i).2, k, hk.le, ?_, ?_, ?_⟩
  · intro i hi
    obtain ⟨e, he, ht⟩ := hk.transient i hi
    rw [Nat.zero_add] at he
    rw [hsettled, he]
    intro hno
    rw [hno e rfl] at ht
    cases ht
  · have hlast := hk.last
    rw [Nat.zero_add] at hlast
    exact hlast.imp id (hsettled k).mpr
  · rw [ask, hcontent]
    dsimp only
    rw [heq, exchange]
    simp only [Nat.zero_add, fun i => (hmeets i).1]

/-- A refused connection and an empty reply are repeated, and the rejection is not; what stands
behind its line feed is not looked at. -/
theorem ask_retries_rejected :
    let c : Client := ⟨"localhost:9432", "java", 30000, ⟨5, 200⟩⟩
    let fs : FileSystem := ⟨.folder [("A.java", .file (Utf8.encode "class A") 0)], []⟩
    let network := Network.scripted [.unreachable .connectionRefused, .reply [],
      .reply (Utf8.encode "[\"error\",null,\"syntax\"]\n]")]
    fs.readText "A.java" = .ok "class A" ∧
      (c.ask fs network "A.java").contacts = 3 ∧
      (c.ask fs network "A.java").waits = [200, 400] ∧
      ∃ verdict : ℕ → Except TreeError Node,
        (∀ i r, Verdict c.endpoint "A.java" (c.contact network i) r ↔ r = verdict i) ∧
        ∃ k ≤ 5, (∀ i < k, ¬ Settled (verdict i)) ∧ (k = 5 ∨ Settled (verdict k)) ∧
          (c.ask fs network "A.java").result = verdict k := by
  intro c fs network
  have hfile : fs.find "A.java" = .ok (.file (Utf8.encode "class A") 0) :=
    FileSystem.find_here (by decide) (by decide) (by decide) (by decide) (by decide) rfl
  have htext : fs.readText "A.java" = .ok "class A" := FileSystem.readText_of_find hfile
  have hsplit : Endpoint.split? c.endpoint = some ("localhost", "9432") := by decide +kernel
  have hend : Endpoint.fault? c.endpoint = none :=
    Endpoint.fault?_eq_none hsplit (by decide) (by decide)
  have hask : c.ask fs network "A.java" =
      c.attempts "A.java" (c.request "A.java" "class A") network 5 0 := by
    have hreach : c.reach network = network := by rw [reach, hend]
    rw [ask, htext, hreach]
    rfl
  refine ⟨htext, by rw [hask]; decide +kernel, by rw [hask]; decide +kernel, ?_⟩
  obtain ⟨verdict, hv, k, hk, hbefore, hlast, heq⟩ :=
    (ask_retries c fs network "A.java").2.2 "class A" htext
  exact ⟨verdict, hv, k, hk, hbefore, hlast, by rw [heq]⟩

end Client

end SettingCatalog
