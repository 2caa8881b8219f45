import SettingCatalog.Proofs.Run.Sources
import SettingCatalog.Proofs.Source.Caching
import SettingCatalog.Proofs.Source.Retrying
import SettingCatalog.Source.Origin

/-! The answers of a source behind a cache: what the store has goes before what the source gives.
An acquisition leaves these answers as they are, as a tree that is kept is the one that the source
gave. -/

namespace SettingCatalog

/-! ### Trees of origins have their roles in their fields -/

namespace Client

lemma normalize_of_judge {path : String} {r : Response} {t : Node}
    (h : judge path r = .ok t) : t.normalize = t := by
  rw [judge] at h
  split at h
  · split at h
    · rename_i tree _
      rw [← Except.ok.inj h, Node.normalize_normalize]
    · cases h
  · cases h

lemma normalize_of_classify {c : Client} {path : String} {bs : Bytes} {t : Node}
    (h : c.classify path bs = .ok t) : t.normalize = t := by
  rw [classify] at h
  split at h
  · cases h
  · split at h
    · cases h
    · split at h
      · cases h
      · exact normalize_of_judge h

lemma normalize_of_once {c : Client} {path : String} {contact : Contact} {t : Node}
    (h : (c.once path contact).1 = .ok t) : t.normalize = t := by
  cases contact with
  | unreachable cause => cases h
  | silent cause =>
    rw [once] at h
    split at h <;> cases h
  | reply bs =>
    rw [once] at h
    split at h
    · cases h
    · have hreply : c.classify path bs = .ok t := h
      exact normalize_of_classify hreply

lemma normalize_of_ask {c : Client} {fs : FileSystem} {network : Network} {path : String} {t : Node}
    (h : (c.ask fs network path).result = .ok t) : t.normalize = t := by
  rw [ask] at h
  split at h
  · cases h
  · rename_i content _
    obtain ⟨k, -, hk⟩ := attempts_stops c path (c.request path content) (c.reach network)
      c.retry.retries.toNat 0
    rw [hk, exchange] at h
    exact normalize_of_once h

end Client

lemma normalize_of_readTreeFile {fs : FileSystem} {path : String} {t : Node}
    (h : readTreeFile fs path = .ok t) : t.normalize = t := by
  have hdecode (content : Bytes) (h : decodeFile path content = .ok t) : t.normalize = t := by
    rw [decodeFile] at h
    split at h
    · rename_i hread
      rw [Except.ok.inj h] at hread
      exact Node.normalize_of_decode hread
    · cases h
  rw [readTreeFile] at h
  split at h
  · cases h
  · exact hdecode _ h
  · exact hdecode _ h
  · cases h

lemma TreeOrigin.normalize_of_acquire {origin : TreeOrigin} {network : String → Network}
    {fs : FileSystem} {path : String} {traffic : Client.Traffic} {t : Node}
    (h : (origin.acquire network fs path traffic).1 = .ok t) : t.normalize = t := by
  cases origin with
  | stored layout => exact normalize_of_readTreeFile h
  | service client => exact Client.normalize_of_ask h

/-- The answers of a source, with trees that are known laid over them. -/
def overlay (known : String → Option Node) (inner : String → Except TreeError Node)
    (path : String) : Except TreeError Node :=
  match known path with
  | some tree => .ok tree
  | none => inner path

/-! ### Answers behind a cache -/

namespace Cache

variable {σ : Type} {c : Cache σ} {m : Contents} {fingerprint? : String → Option Fingerprint}
  {inner : String → Except TreeError Node}

def known (c : Cache σ) (m : Contents) (fingerprint? : String → Option Fingerprint)
    (path : String) : Option Node :=
  (fingerprint? path).bind fun f => (m (keyOf path)).bind (c.treeIn? f)

lemma known_of_empty (c : Cache σ) (fingerprint? : String → Option Fingerprint) :
    c.known (fun _ => none) fingerprint? = fun _ => none := by
  funext path
  rw [known]
  cases fingerprint? path <;> rfl

lemma overlay_insert (hlayout : c.layout.ReadsBack) {path : String} {f : Fingerprint} {t : Node}
    {value : Bytes} (hf : fingerprint? path = some f) (hnone : c.known m fingerprint? path = none)
    (ht : inner path = .ok t) (hnormal : t.normalize = t)
    (hvalue : c.valueOf? (f, t) = some value) :
    overlay (c.known (m.insert (keyOf path) value) fingerprint?) inner =
      overlay (c.known m fingerprint?) inner := by
  funext k
  by_cases hk : k = path
  · subst hk
    have htree := treeIn?_valueOf? hlayout (f, t) f
    rw [hvalue, Option.bind_some, if_pos rfl, hnormal] at htree
    have hnow : c.known (m.insert (keyOf k) value) fingerprint? k = some t := by
      rw [known, hf, Option.bind_some, Contents.insert, if_pos rfl, Option.bind_some, htree]
    rw [overlay, overlay, hnow, hnone, ht]
  · have hsame : c.known (m.insert (keyOf path) value) fingerprint? k =
        c.known m fingerprint? k := by
      rw [known, known, Contents.insert, if_neg fun h => hk (keyOf_inj.mp h)]
    rw [overlay, overlay, hsame]

section Reach

variable {start x : OpenStore σ}

lemma reach_lookup (h : c.store.Reach start x) (path : String) (f? : Option Fingerprint) :
    c.store.Reach start (c.lookup path f? x).2 := by
  cases f? with
  | none => exact h
  | some f =>
    have hget := h.get (keyOf path)
    rw [lookup]
    rcases hx : c.store.get (keyOf path) x with ⟨e | value?, x'⟩
    · rwa [hx] at hget
    · rwa [hx] at hget

lemma reach_remember (h : c.store.Reach start x) (path : String) (f? : Option Fingerprint)
    (result : Except TreeError Node) : c.store.Reach start (c.remember path f? result x) := by
  cases f? with
  | none => exact h
  | some f =>
    cases result with
    | error e => exact h
    | ok tree =>
      rw [remember, keep]
      split
      · exact h.insert _ _
      · exact h

end Reach

end Cache

namespace TreeOrigin

variable {σ : Type} {origin : TreeOrigin} {network : String → Network} {paths : List String}
  {inner : String → Except TreeError Node}

theorem direct_answers {x : OpenStore σ}
    (hinner : ∀ path ∈ paths, ∀ traffic,
      (origin.acquire network x.files path traffic).1 = inner path) :
    (origin.direct network).Answers inner paths fun s => s.1 = x where
  answer_eq path hpath s hs := by
    rw [direct, hs]
    exact hinner path hpath s.2
  inv_state _ _ _ hs := hs

/-- In all states that the store comes to, a source behind a cache gives what the store had to begin
with, laid over the answers of the origin. -/
theorem cached_answers {cache : Cache σ} {folder : List String}
    {holds : Contents → OpenStore σ → Prop} (hstore : cache.store.Lawful folder holds)
    (hlayout : cache.layout.ReadsBack) (m : Contents) {start : OpenStore σ}
    (hinner : ∀ x, cache.store.Reach start x → ∀ path ∈ paths, ∀ traffic,
      (origin.acquire network x.files path traffic).1 = inner path)
    (hfingerprint : ∀ x, cache.store.Reach start x → ∀ path ∈ paths,
      x.files.fingerprint? path = start.files.fingerprint? path) :
    (origin.cached network cache).Answers
      (overlay (cache.known m start.files.fingerprint?) inner) paths
      fun s => cache.store.Reach start s.1 ∧
        FileSystem.Keeps (Within folder) start.files s.1.files ∧
        ∃ m', holds m' s.1 ∧ overlay (cache.known m' start.files.fingerprint?) inner =
          overlay (cache.known m start.files.fingerprint?) inner := by
  apply TreeSource.Answers.of_acquired
  intro path hpath
  rintro ⟨x, traffic⟩ ⟨hreach, hkeeps, m', hx, hover⟩
  obtain ⟨x', hlookup, hx', hkept⟩ :=
    Cache.lookup_of_holds hstore hx path (x.files.fingerprint? path)
  have hreach' : cache.store.Reach start x' := by
    have hget := Cache.reach_lookup hreach path (x.files.fingerprint? path)
    rwa [hlookup] at hget
  have hkeeps' := hkeeps.trans hkept
  have hf := hfingerprint x hreach path hpath
  have hfound : cache.lookup path (x.files.fingerprint? path) x =
      (cache.known m' start.files.fingerprint? path, x') := by
    rw [hlookup, hf]
    rfl
  have hasked := hinner x' hreach' path hpath traffic
  rw [cached, Cache.acquire, ← hover]
  rcases Cache.acquireBy_cases cache id id (origin.acquire network) path x traffic with
    ⟨t, y, hcase, hacquire⟩ | ⟨y, hcase, hacquire⟩
  · obtain ⟨hknown, rfl⟩ := Prod.mk.inj (hfound.symm.trans hcase)
    rw [hacquire]
    refine ⟨by rw [overlay, hknown], hreach', hkeeps', m', hx', rfl⟩
  · obtain ⟨hknown, rfl⟩ := Prod.mk.inj (hfound.symm.trans hcase)
    rw [hacquire, hasked]
    refine ⟨by rw [overlay, hknown], Cache.reach_remember hreach' _ _ _, ?_⟩
    dsimp only [id]
    cases hobtained : x.files.fingerprint? path with
    | none => exact ⟨hkeeps', m', hx', rfl⟩
    | some f =>
      cases ht : inner path with
      | error e => exact ⟨hkeeps', m', hx', rfl⟩
      | ok t =>
        obtain ⟨value, hvalue, hinsert, hkept'⟩ :=
          Cache.remember_of_holds hstore hx' hlayout path f t
        have hnormal := normalize_of_acquire (hasked.trans ht)
        exact ⟨hkeeps'.trans hkept', _, hinsert,
          Cache.overlay_insert hlayout (hf.symm.trans hobtained) hknown ht hnormal hvalue⟩

end TreeOrigin

end SettingCatalog
