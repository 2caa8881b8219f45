import SettingCatalog.Proofs.Files.Writing
import SettingCatalog.Proofs.Source.FileStore
import SettingCatalog.Proofs.Tree.RoundTrip

/-! A source behind a cache, over any sequence of acquisitions, changes of the files and of the
source, and reopenings of the store. The entry under a key is what the latest acquisition under
that key obtained from the source, so an acquisition gives that tree or asks the source. -/

namespace SettingCatalog

/-! ### Fingerprints -/

namespace FileSystem

variable {fs : FileSystem} {path : String}

lemma fingerprint?_eq_some_iff {f : Fingerprint} :
    fs.fingerprint? path = some f ↔
      ∃ item m, fs.find path = .ok item ∧ item.metadata? = some m ∧ 0 ≤ m.modified ∧
        f.modified.toNat = m.modified.toNat % 2 ^ 64 ∧ f.size.toNat = m.size % 2 ^ 64 := by
  have hwords (m : Metadata) : (⟨.ofNat m.modified.toNat, .ofNat m.size⟩ : Fingerprint) = f ↔
      f.modified.toNat = m.modified.toNat % 2 ^ 64 ∧ f.size.toNat = m.size % 2 ^ 64 := by
    obtain ⟨modified, size⟩ := f
    rw [Fingerprint.mk.injEq, ← UInt64.toNat_inj, ← UInt64.toNat_inj, UInt64.toNat_ofNat',
      UInt64.toNat_ofNat', eq_comm, eq_comm (b := size.toNat)]
  rw [fingerprint?]
  cases fs.find path with
  | error e => simp
  | ok item =>
    cases hm : item.metadata? with
    | none => simp [hm]
    | some m =>
      by_cases htime : 0 ≤ m.modified
      · simp [hm, Metadata.fingerprint?, htime, hwords]
      · simp [hm, Metadata.fingerprint?, htime]

lemma fingerprint?_file {content : Bytes} {modified : Int}
    (h : fs.find path = .ok (.file content modified)) :
    fs.fingerprint? path =
      if modified < 0 then none else some ⟨.ofNat modified.toNat, .ofNat content.length⟩ := by
  rw [fingerprint?, h]
  by_cases htime : modified < 0
  · simp [Item.metadata?, Metadata.fingerprint?, htime]
  · simp [Item.metadata?, Metadata.fingerprint?, htime, Int.not_lt.mp htime]

end FileSystem

/-! ### One acquisition -/

namespace Cache

variable {π σ τ : Type} {c : Cache σ}

lemma keyOf_inj {p q : String} : keyOf p = keyOf q ↔ p = q := by
  refine ⟨fun h => ?_, congrArg keyOf⟩
  have hdecode := congrArg Text.Utf8.decode? h
  rwa [keyOf, keyOf, Text.Utf8.decode?_encode, Text.Utf8.decode?_encode, Option.some.injEq]
    at hdecode

/-- Whatever the store does, an acquisition gives the tree that was found, or else the answer of the
source, which is asked once. -/
lemma acquireBy_cases (c : Cache σ) (key file : π → String)
    (inner : FileSystem → π → τ → Except TreeError Node × τ) (path : π) (x : OpenStore σ) (s : τ) :
    let f? := x.files.fingerprint? (file path)
    (∃ tree x', c.lookup (key path) f? x = (some tree, x') ∧
      c.acquireBy key file inner path (x, s) = (.ok tree, x', s)) ∨
    ∃ x', c.lookup (key path) f? x = (none, x') ∧
      c.acquireBy key file inner path (x, s) =
        ((inner x'.files path s).1, c.remember (key path) f? (inner x'.files path s).1 x',
          (inner x'.files path s).2) := by
  intro f?
  rw [acquireBy]
  dsimp only
  rcases hfound : c.lookup (key path) f? x with ⟨tree | tree, x'⟩
  · exact .inr ⟨x', rfl, rfl⟩
  · exact .inl ⟨tree, x', rfl, rfl⟩

def entryOf (e : Fingerprint × Node) : CacheEntry := ⟨version, e.1, e.2.encodeBytes⟩

def valueOf? (c : Cache σ) (e : Fingerprint × Node) : Option Bytes :=
  (c.layout.serialize (entryOf e)).toOption

section Lawful

variable {folder : List String} {holds : Contents → OpenStore σ → Prop}

lemma exists_valueOf? (hlayout : c.layout.ReadsBack) (e : Fingerprint × Node) :
    ∃ value, c.layout.serialize (entryOf e) = .ok value ∧ c.valueOf? e = some value ∧
      c.layout.deserialize value = .ok (entryOf e) := by
  obtain ⟨value, hvalue, hback⟩ := hlayout (entryOf e)
  exact ⟨value, hvalue, by rw [valueOf?, hvalue]; rfl, hback⟩

lemma treeIn?_valueOf? (hlayout : c.layout.ReadsBack) (e : Fingerprint × Node) (f : Fingerprint) :
    (c.valueOf? e).bind (c.treeIn? f) = if e.1 = f then some e.2.normalize else none := by
  obtain ⟨value, -, hvalue, hback⟩ := exists_valueOf? hlayout e
  rw [hvalue, Option.bind_some, treeIn?, hback]
  by_cases hf : e.1 = f
  · simp [entryOf, hf, Node.decode_encodeBytes, Except.toOption]
  · simp [entryOf, hf]

variable (hstore : c.store.Lawful folder holds) {m : Contents} {x : OpenStore σ} (hx : holds m x)

include hstore hx

lemma lookup_of_holds (path : String) (f? : Option Fingerprint) :
    ∃ x', c.lookup path f? x = (f?.bind fun f => (m (keyOf path)).bind (c.treeIn? f), x') ∧
      holds m x' ∧ FileSystem.Keeps (Within folder) x.files x'.files := by
  cases f? with
  | none => exact ⟨x, rfl, hx, .refl _ _⟩
  | some f =>
    obtain ⟨x', hget, hx'⟩ := hstore.get hx (keyOf path)
    exact ⟨x', by rw [lookup, hget]; rfl, hx'⟩

lemma remember_of_holds (hlayout : c.layout.ReadsBack) (path : String) (f : Fingerprint)
    (t : Node) :
    ∃ value, c.valueOf? (f, t) = some value ∧
      holds (m.insert (keyOf path) value) (c.remember path (some f) (.ok t) x) ∧
      FileSystem.Keeps (Within folder) x.files (c.remember path (some f) (.ok t) x).files := by
  obtain ⟨value, hvalue, hkept, -⟩ := exists_valueOf? hlayout (f, t)
  obtain ⟨x', hinsert, hx'⟩ := hstore.insert hx (keyOf path) value
  have hkeep : c.keep path f t x = (.ok (), x') := by
    rw [keep, show (⟨version, f, t.encodeBytes⟩ : CacheEntry) = entryOf (f, t) from rfl, hvalue]
    exact hinsert
  rw [remember, hkeep]
  exact ⟨value, hkept, hx'⟩

end Lawful

end Cache

namespace Caching

variable {π σ : Type}

/-- An acquisition: the fingerprint and the answer that there were for its path, whether or not the
source was asked, the paths that the source was asked for, and the result. -/
structure Visit (π : Type) where
  path : π
  fingerprint : Option Fingerprint
  answer : Except TreeError Node
  asked : List π
  result : Except TreeError Node

/-- What the source gave for a file with a fingerprint. -/
def Visit.obtained? (v : Visit π) : Option (Fingerprint × Node) :=
  match v.asked, v.fingerprint, v.answer with
  | _ :: _, some f, .ok t => some (f, t)
  | _, _, _ => none

/-- What the latest of the visits under a key obtained that obtained anything. The latest visit is
the first one. -/
def latest? (key : π → String) (k : String) (visits : List (Visit π)) :
    Option (Fingerprint × Node) :=
  (visits.filter fun v => key v.path = k).findSome? Visit.obtained?

/-- An open cache, the answers that the source gives now, and the visits so far. -/
structure Session (π σ : Type) where
  opened : OpenStore σ
  answer : π → Except TreeError Node
  visits : List (Visit π)

namespace Session

variable (c : Cache σ) (folder : List String) (key file : π → String)

def ask (answer : π → Except TreeError Node) (_ : FileSystem) (path : π) (asked : List π) :
    Except TreeError Node × List π :=
  (answer path, asked ++ [path])

def visit (s : Session π σ) (path : π) : Visit π × OpenStore σ :=
  let (result, x, asked) := c.acquireBy key file (ask s.answer) path (s.opened, [])
  (⟨path, s.opened.files.fingerprint? (file path), s.answer path, asked, result⟩, x)

inductive Step (s : Session π σ) : Session π σ → Prop
  | change (fs : FileSystem) (answer : π → Except TreeError Node)
      (hspared : Spares folder s.opened.files fs) : Step s ⟨⟨s.opened.state, fs⟩, answer, s.visits⟩
  | acquire (path : π) :
    Step s ⟨(s.visit c key file path).2, s.answer, (s.visit c key file path).1 :: s.visits⟩
  | flush {x : OpenStore σ} (hflush : c.store.flush s.opened = (.ok (), x)) :
    Step s ⟨x, s.answer, s.visits⟩
  /-- The store is flushed and given up, and opened again. In between the files may change. -/
  | reopen {x : OpenStore σ} {fs fs' : FileSystem} {state : σ}
      (hflush : c.store.flush s.opened = (.ok (), x))
      (hspared : Spares folder (c.store.close x) fs)
      (hopen : c.store.openIn fs = (.ok state, fs')) : Step s ⟨⟨state, fs'⟩, s.answer, s.visits⟩

inductive Run (holds : Contents → OpenStore σ → Prop) : Session π σ → Prop
  | start {x : OpenStore σ} (hx : holds (fun _ => none) x) (answer : π → Except TreeError Node) :
    Run holds ⟨x, answer, []⟩
  | step {s s' : Session π σ} (h : Run holds s) (hstep : Step c folder key file s s') :
    Run holds s'

end Session

/-! ### Visits -/

variable {c : Cache σ} {folder : List String} {holds : Contents → OpenStore σ → Prop}
  {key file : π → String}

lemma obtained?_eq_some_iff {v : Visit π} {f : Fingerprint} {t : Node} :
    v.obtained? = some (f, t) ↔ v.asked ≠ [] ∧ v.fingerprint = some f ∧ v.answer = .ok t := by
  obtain ⟨path, fingerprint, answer, asked, result⟩ := v
  cases asked <;> cases fingerprint <;> cases answer <;> simp [Visit.obtained?]

lemma latest?_cons (k : String) (v : Visit π) (visits : List (Visit π)) :
    latest? key k (v :: visits) =
      if key v.path = k then v.obtained?.or (latest? key k visits) else latest? key k visits := by
  by_cases hk : key v.path = k
  · rw [if_pos hk, latest?, List.filter_cons_of_pos (by simpa using hk), List.findSome?_cons]
    cases v.obtained? with
    | none => rfl
    | some e => rfl
  · rw [if_neg hk, latest?, List.filter_cons_of_neg (by simpa using hk), latest?]

namespace Session

variable {s : Session π σ} {m : Contents} {visits : List (Visit π)}

def fresh (file : π → String) (s : Session π σ) (path : π) : Visit π :=
  ⟨path, s.opened.files.fingerprint? (file path), s.answer path, [path], s.answer path⟩

def Tracks (c : Cache σ) (key : π → String) (m : Contents) (visits : List (Visit π)) : Prop :=
  ∀ k, m (Cache.keyOf k) = (latest? key k visits).bind c.valueOf?

lemma Tracks.lookup_iff (hlayout : c.layout.ReadsBack) (h : Tracks c key m visits) (k : String)
    (f : Fingerprint) (n : Node) :
    (m (Cache.keyOf k)).bind (c.treeIn? f) = some n ↔
      ∃ t, latest? key k visits = some (f, t) ∧ n = t.normalize := by
  rw [h k]
  cases latest? key k visits with
  | none => simp
  | some e =>
    obtain ⟨g, t⟩ := e
    rw [Option.bind_some, Cache.treeIn?_valueOf? hlayout]
    by_cases hg : g = f
    · simp [hg, eq_comm]
    · simp [hg]

lemma Tracks.insert (h : Tracks c key m visits) {v : Visit π} {e : Fingerprint × Node}
    {value : Bytes} (he : v.obtained? = some e) (hvalue : c.valueOf? e = some value) :
    Tracks c key (m.insert (Cache.keyOf (key v.path)) value) (v :: visits) := by
  intro k
  rw [latest?_cons, Contents.insert, he]
  by_cases hk : key v.path = k
  · rw [if_pos hk, if_pos (congrArg Cache.keyOf hk.symm), Option.some_or, Option.bind_some, hvalue]
  · rw [if_neg hk, if_neg fun heq => hk (Cache.keyOf_inj.mp heq).symm, h k]

lemma Tracks.cons_of_none (h : Tracks c key m visits) {v : Visit π} (hv : v.obtained? = none) :
    Tracks c key m (v :: visits) := by
  intro k
  rw [latest?_cons, hv, Option.none_or, ite_self, h k]

/-- The latest visit under the key of the path that obtained anything obtained the tree, from a
file with the fingerprint that there is now. -/
def Recalls (key file : π → String) (s : Session π σ) (path : π) (t : Node) : Prop :=
  ∃ f, s.opened.files.fingerprint? (file path) = some f ∧
    latest? key (key path) s.visits = some (f, t)

lemma remember_of_obtained?_eq_none {path : π} (h : (s.fresh file path).obtained? = none)
    (x : OpenStore σ) :
    c.remember (key path) (s.opened.files.fingerprint? (file path)) (s.answer path) x = x := by
  rw [fresh, Visit.obtained?] at h
  cases hf : s.opened.files.fingerprint? (file path) with
  | none => rfl
  | some f =>
    cases ha : s.answer path with
    | error e => rfl
    | ok t => simp [hf, ha] at h

section Lawful

variable (hstore : c.store.Lawful folder holds)

include hstore

/-- A visit finds a tree in the store, or asks the source. -/
lemma exists_visit_eq (key file : π → String) (hm : holds m s.opened) (path : π) :
    ∃ x, holds m x ∧
      ((∃ f n, s.opened.files.fingerprint? (file path) = some f ∧
          (m (Cache.keyOf (key path))).bind (c.treeIn? f) = some n ∧
          s.visit c key file path =
            (⟨path, s.opened.files.fingerprint? (file path), s.answer path, [], .ok n⟩, x)) ∨
        (∀ f, s.opened.files.fingerprint? (file path) = some f →
          (m (Cache.keyOf (key path))).bind (c.treeIn? f) = none) ∧
        s.visit c key file path = (s.fresh file path, c.remember (key path)
          (s.opened.files.fingerprint? (file path)) (s.answer path) x)) := by
  obtain ⟨x, hlookup, hx, -⟩ := Cache.lookup_of_holds hstore hm (key path)
    (s.opened.files.fingerprint? (file path))
  refine ⟨x, hx, ?_⟩
  rcases Cache.acquireBy_cases c key file (ask s.answer) path s.opened [] with
    ⟨n, x', hfound, hvisit⟩ | ⟨x', hfound, hvisit⟩
  · rw [hlookup, Prod.mk.injEq, Option.bind_eq_some_iff] at hfound
    obtain ⟨⟨f, hf, hn⟩, rfl⟩ := hfound
    exact .inl ⟨f, n, hf, hn, by rw [visit, hvisit]⟩
  · rw [hlookup, Prod.mk.injEq, Option.bind_eq_none_iff] at hfound
    obtain ⟨hnone, rfl⟩ := hfound
    refine .inr ⟨hnone, ?_⟩
    rw [visit, hvisit]
    rfl

lemma holds_visit (hm : holds m s.opened) {path : π}
    (hnone : (s.fresh file path).obtained? = none) : holds m (s.visit c key file path).2 := by
  obtain ⟨x, hx, ⟨f, n, -, -, hv⟩ | ⟨-, hv⟩⟩ := exists_visit_eq hstore key file hm path
  · rw [hv]
    exact hx
  · rw [hv, remember_of_obtained?_eq_none hnone]
    exact hx

variable (hlayout : c.layout.ReadsBack)

include hlayout

lemma visit_cases (file : π → String) (hm : holds m s.opened) (htracks : Tracks c key m s.visits)
    (path : π) :
    ((∃ t, s.Recalls key file path t ∧ (s.visit c key file path).1 =
        ⟨path, s.opened.files.fingerprint? (file path), s.answer path, [], .ok t.normalize⟩) ∨
      (∀ t, ¬ s.Recalls key file path t) ∧ (s.visit c key file path).1 = s.fresh file path) ∧
    ∃ m', holds m' (s.visit c key file path).2 ∧
      Tracks c key m' ((s.visit c key file path).1 :: s.visits) := by
  obtain ⟨x, hx, ⟨f, n, hf, hn, hv⟩ | ⟨hnone, hv⟩⟩ := exists_visit_eq hstore key file hm path
  · obtain ⟨t, ht, rfl⟩ := (htracks.lookup_iff hlayout _ _ _).mp hn
    rw [hv]
    exact ⟨.inl ⟨t, ⟨f, hf, ht⟩, rfl⟩, m, hx, htracks.cons_of_none rfl⟩
  · have hask : ∀ t, ¬ s.Recalls key file path t := by
      rintro t ⟨f, hf, ht⟩
      have hn := (htracks.lookup_iff hlayout (key path) f _).mpr ⟨t, ht, rfl⟩
      rw [hnone f hf] at hn
      cases hn
    cases hobtained : (s.fresh file path).obtained? with
    | none =>
      have hkept : holds m (s.visit c key file path).2 := holds_visit hstore hm hobtained
      rw [hv] at hkept ⊢
      exact ⟨.inr ⟨hask, rfl⟩, m, hkept, htracks.cons_of_none hobtained⟩
    | some e =>
      obtain ⟨f, t⟩ := e
      obtain ⟨-, hf, ht⟩ := obtained?_eq_some_iff.mp hobtained
      change s.opened.files.fingerprint? (file path) = some f at hf
      change s.answer path = .ok t at ht
      obtain ⟨value, hvalue, hkept, -⟩ :=
        Cache.remember_of_holds hstore hx hlayout (key path) f t
      rw [hv, hf, ht]
      exact ⟨.inr ⟨hask, rfl⟩, _, hkept, htracks.insert hobtained hvalue⟩

lemma Step.tracks {s' : Session π σ} (hstep : Step c folder key file s s')
    (hs : ∃ m, holds m s.opened ∧ Tracks c key m s.visits) :
    ∃ m, holds m s'.opened ∧ Tracks c key m s'.visits := by
  obtain ⟨m, hm, htracks⟩ := hs
  cases hstep with
  | change fs answer hspared => exact ⟨m, hstore.spared hm hspared, htracks⟩
  | acquire path =>
    obtain ⟨-, m', hm', htracks'⟩ := visit_cases hstore hlayout file hm htracks path
    exact ⟨m', hm', htracks'⟩
  | flush hflush =>
    obtain ⟨x', hflush', hx', -⟩ := hstore.flush hm
    rw [hflush', Prod.mk.injEq] at hflush
    exact ⟨m, hflush.2 ▸ hx', htracks⟩
  | reopen hflush hspared hopen => exact ⟨m, hstore.reopen hm hflush hspared hopen, htracks⟩

lemma Run.tracks (hrun : Run c folder key file holds s) :
    ∃ m, holds m s.opened ∧ Tracks c key m s.visits := by
  induction hrun with
  | start hx answer => exact ⟨_, hx, fun k => rfl⟩
  | step _ hstep ih => exact hstep.tracks hstore hlayout ih

end Lawful

lemma exists_visit_of_latest? {k : String} {f : Fingerprint} {t : Node}
    (h : latest? key k visits = some (f, t)) :
    ∃ v ∈ visits, key v.path = k ∧ v.fingerprint = some f ∧ v.answer = .ok t := by
  obtain ⟨v, hv, ht⟩ := List.exists_of_findSome?_eq_some h
  obtain ⟨hmem, hk⟩ := List.mem_filter.mp hv
  exact ⟨v, hmem, by simpa using hk, (obtained?_eq_some_iff.mp ht).2⟩

lemma obtained?_eq_none_of_fresh {path : π}
    (h : s.opened.files.fingerprint? (file path) = none ∨ ∃ e, s.answer path = .error e) :
    (s.fresh file path).obtained? = none := by
  apply Option.eq_none_iff_forall_ne_some.mpr
  rintro ⟨f, t⟩ hobtained
  obtain ⟨-, hf, ht⟩ := obtained?_eq_some_iff.mp hobtained
  rcases h with h | ⟨e, h⟩
  · cases h.symm.trans hf
  · cases h.symm.trans ht

/-- Over a store that works, an acquisition gives the tree that is recalled, or else asks the
source; a fingerprint is the time in nanoseconds since 1970 and the size. What obtains nothing
leaves the store with what it had. Behind a source with normalized trees, whose answers for a key
are the same as long as the fingerprint is, nobody can tell whether there is a cache. -/
theorem visit_recalls_or_asks (hstore : c.store.Lawful folder holds)
    (hlayout : c.layout.ReadsBack) (hrun : Run c folder key file holds s) (path : π) :
    let v := (s.visit c key file path).1
    ((∀ content modified, s.opened.files.find (file path) = .ok (.file content modified) →
        s.opened.files.fingerprint? (file path) =
          if modified < 0 then none else some ⟨.ofNat modified.toNat, .ofNat content.length⟩) ∧
      ∀ f, s.opened.files.fingerprint? (file path) = some f ↔
        ∃ item m, s.opened.files.find (file path) = .ok item ∧ item.metadata? = some m ∧
          0 ≤ m.modified ∧ f.modified.toNat = m.modified.toNat % 2 ^ 64 ∧
          f.size.toNat = m.size % 2 ^ 64) ∧
    (∀ t, s.Recalls key file path t → v.asked = [] ∧ v.result = .ok t.normalize) ∧
    ((∀ t, ¬ s.Recalls key file path t) → v.asked = [path] ∧ v.result = s.answer path) ∧
    (s.opened.files.fingerprint? (file path) = none ∨ (∃ e, s.answer path = .error e) →
      ∀ m, holds m s.opened → holds m (s.visit c key file path).2) ∧
    ((∀ w ∈ s.visits, ∀ t, w.answer = .ok t → t.normalize = t) →
      (∀ f, s.opened.files.fingerprint? (file path) = some f → ∀ w ∈ s.visits,
        key w.path = key path → w.fingerprint = some f → w.answer = s.answer path) →
      v.result = s.answer path) := by
  intro v
  obtain ⟨m, hm, htracks⟩ := hrun.tracks hstore hlayout
  have hrecalls : ∀ t, s.Recalls key file path t → v.asked = [] ∧ v.result = .ok t.normalize := by
    rintro t ⟨f, hf, ht⟩
    rcases (visit_cases hstore hlayout file hm htracks path).1 with
      ⟨t', ⟨f', hf', ht'⟩, hv⟩ | ⟨hnone, -⟩
    · obtain rfl := Option.some.inj (hf.symm.trans hf')
      obtain rfl := (Prod.mk.inj (Option.some.inj (ht.symm.trans ht'))).2
      exact ⟨congrArg Visit.asked hv, congrArg Visit.result hv⟩
    · exact absurd ⟨f, hf, ht⟩ (hnone t)
  have hask : (∀ t, ¬ s.Recalls key file path t) →
      v.asked = [path] ∧ v.result = s.answer path := by
    intro hnone
    rcases (visit_cases hstore hlayout file hm htracks path).1 with ⟨t, ht, -⟩ | ⟨-, hv⟩
    · exact absurd ht (hnone t)
    · exact ⟨congrArg Visit.asked hv, congrArg Visit.result hv⟩
  refine ⟨⟨fun _ _ => FileSystem.fingerprint?_file, fun _ => FileSystem.fingerprint?_eq_some_iff⟩,
    hrecalls, hask, fun hnone m hm => ?_, fun hnormal hstable => ?_⟩
  · exact holds_visit hstore hm (obtained?_eq_none_of_fresh hnone)
  by_cases h : ∃ t, s.Recalls key file path t
  · obtain ⟨t, f, hf, ht⟩ := h
    obtain ⟨w, hw, hkey, hfw, hanswer⟩ := exists_visit_of_latest? ht
    rw [(hrecalls t ⟨f, hf, ht⟩).2, hnormal w hw t hanswer, ← hanswer]
    exact hstable f hf w hw hkey hfw
  · exact (hask fun t ht => h ⟨t, ht⟩).2

/-! ### A file acquired twice -/

def sourceFile : FileSystem := ⟨.folder [("A.java", .file [0x41] 5), ("c", .folder [])], []⟩

def roleTree : Node := (Node.ofTag "T").withAttribute Node.roleAttribute "r"

lemma holds_sourceFile : FileStore.Holds ["c"] (fun _ => none) ⟨(), sourceFile⟩ :=
  ⟨⟨[], rfl⟩, fun _ => rfl⟩

lemma find_sourceFile (items : List (String × Item)) :
    FileSystem.find ⟨.folder [("A.java", .file [0x41] 5), ("c", .folder items)], []⟩ "A.java" =
      .ok (.file [0x41] 5) :=
  FileSystem.find_of_taken (by decide) rfl rfl

lemma visit_sourceFile (answer : String → Except TreeError Node)
    (h : answer "A.java" = .ok roleTree) :
    ∃ items, visit (FileStore.cache ["c"]) id id ⟨⟨(), sourceFile⟩, answer, []⟩ "A.java" =
      (⟨"A.java", some ⟨5, 1⟩, .ok roleTree, ["A.java"], .ok roleTree⟩,
        ⟨(), ⟨.folder [("A.java", .file [0x41] 5), ("c", .folder items)], []⟩⟩) := by
  have hf : sourceFile.fingerprint? "A.java" = some ⟨5, 1⟩ :=
    FileSystem.fingerprint?_file (find_sourceFile [])
  have hlookup : (FileStore.cache ["c"]).lookup "A.java" (some ⟨5, 1⟩) ⟨(), sourceFile⟩ =
      (none, ⟨(), sourceFile⟩) := rfl
  have hremember : (FileStore.cache ["c"]).remember "A.java" (some ⟨5, 1⟩) (.ok roleTree)
      ⟨(), sourceFile⟩ = ⟨(), ⟨.folder [("A.java", .file [0x41] 5),
        ("c", .folder [(FileStore.nameOf (Cache.keyOf "A.java"),
          .file (((FileStore.cache ["c"]).valueOf? (⟨5, 1⟩, roleTree)).getD []) 0)])], []⟩⟩ := rfl
  exact ⟨_, by simp [visit, Cache.acquireBy, hf, hlookup, ask, h, hremember]; rfl⟩

/-- After the source has changed its mind and the store was opened again, the tree is still the
first one, with its role in its field. -/
theorem visit_recalls_or_asks_reopened :
    ∃ s : Session String Unit, Run (FileStore.cache ["c"]) ["c"] id id (FileStore.Holds ["c"]) s ∧
      s.answer "A.java" = .ok (.ofTag "U") ∧ s.Recalls id id "A.java" roleTree ∧
      (s.visit (FileStore.cache ["c"]) id id "A.java").1.asked = [] ∧
      (s.visit (FileStore.cache ["c"]) id id "A.java").1.result = .ok roleTree.normalize := by
  obtain ⟨items, hvisit⟩ := visit_sourceFile (fun _ => .ok roleTree) rfl
  let fs : FileSystem := ⟨.folder [("A.java", .file [0x41] 5), ("c", .folder items)], []⟩
  let v : Visit String := ⟨"A.java", some ⟨5, 1⟩, .ok roleTree, ["A.java"], .ok roleTree⟩
  let s : Session String Unit := ⟨⟨(), fs⟩, fun _ => .ok (.ofTag "U"), [v]⟩
  have hstart : Run (FileStore.cache ["c"]) ["c"] id id (FileStore.Holds ["c"])
      ⟨⟨(), sourceFile⟩, fun _ => .ok roleTree, []⟩ := .start holds_sourceFile _
  have hfirst : Run (FileStore.cache ["c"]) ["c"] id id (FileStore.Holds ["c"])
      ⟨⟨(), fs⟩, fun _ => .ok roleTree, [v]⟩ := by
    have hstep := hstart.step (.acquire "A.java")
    rw [hvisit] at hstep
    exact hstep
  have hrun : Run (FileStore.cache ["c"]) ["c"] id id (FileStore.Holds ["c"]) s :=
    (hfirst.step (.change fs _ (.refl _ _))).step (.reopen rfl (.refl _ _) rfl)
  have hrecalls : s.Recalls id id "A.java" roleTree :=
    ⟨⟨5, 1⟩, FileSystem.fingerprint?_file (find_sourceFile items), rfl⟩
  have hall := visit_recalls_or_asks (FileStore.store_lawful ["c"]) EntryLayout.packed_readsBack
    hrun "A.java"
  exact ⟨s, hrun, rfl, hrecalls, hall.2.1 roleTree hrecalls⟩

end Session

end Caching

end SettingCatalog
