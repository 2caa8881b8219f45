import SettingCatalog.Proofs.Files.Addresses
import SettingCatalog.Proofs.Result

/-! Files written at paths. A path that a file is written at leads to a name in a folder, by no link
at its end, and it leads there again once the file is there: what is read is what was written.
Nothing else changes. -/

namespace SettingCatalog

lemma FilePath.splitChars_ne_nil {separator : Char} (pending cs : List Char) :
    FilePath.splitChars separator pending cs ≠ [] := by
  induction cs generalizing pending with
  | nil => simp [FilePath.splitChars]
  | cons c cs ih =>
    rw [FilePath.splitChars]
    split
    · simp
    · exact ih _

lemma FilePath.segments_ne_nil (p : String) : FilePath.segments p ≠ [] := by
  simpa [FilePath.segments] using FilePath.splitChars_ne_nil [] p.toList

namespace FileSystem

variable {fs : FileSystem} {purpose : Purpose}
  {follow : List String → List String → Except OsError Place} {address : List String} {s : String}
  {segs : List String} {place : Place}

/-! ### One segment of a path -/

structure Names (purpose : Purpose) (s : String) (segs : List String) : Prop where
  not_idle : FilePath.isIdle s = false
  ne_up : s ≠ ".."
  ends : purpose = .write → segs.all (· == "") = true → segs = []
  short : s.utf8ByteSize ≤ nameLimit

inductive Turn (fs : FileSystem) (purpose : Purpose)
    (follow : List String → List String → Except OsError Place) (address : List String) (s : String)
    (segs : List String) (place : Place) (items : List (String × Item)) : Prop
  | idle (hs : FilePath.isIdle s = true) (h : fs.descend purpose follow address segs = .ok place)
  | up (hidle : FilePath.isIdle s = false) (hs : s = "..")
      (h : fs.descend purpose follow address.dropLast segs = .ok place)
  | down (hs : Names purpose s segs) {item : Item} (hitem : items.lookup s = some item)
      (hlink : ∀ target, item ≠ .link target)
      (h : fs.descend purpose follow (address ++ [s]) segs = .ok place)
  | across (hs : Names purpose s segs) {target : String}
      (hitem : items.lookup s = some (.link target))
      (hnot : ¬ (segs.all (· == "") = true ∧ purpose = .enter))
      (h : follow (if FilePath.isAbsolute target then [] else address)
        (FilePath.segments target ++ segs) = .ok place)
  | stop (hs : Names purpose s segs) (hp : purpose = .enter) {target : String}
      (hitem : items.lookup s = some (.link target)) (h : place = .taken (address ++ [s]))
  | vacant (hs : Names purpose s segs) (hlast : segs.all (· == "") = true)
      (hitem : items.lookup s = none) (h : place = .free address s)

lemma turn_of_descend (h : fs.descend purpose follow address (s :: segs) = .ok place) :
    ∃ items, fs.root.at? address = some (.folder items) ∧
      Turn fs purpose follow address s segs place items := by
  rw [descend] at h
  split at h
  · rename_i items hitems
    refine ⟨items, hitems, ?_⟩
    dsimp only at h
    split at h
    · exact .idle ‹_› h
    rename_i hidle
    rw [Bool.not_eq_true] at hidle
    split at h
    · exact .up hidle ‹_› h
    rename_i hup
    split at h
    · cases h
    rename_i hend
    split at h
    · cases h
    rename_i hsize
    have hs : Names purpose s segs := by
      refine ⟨hidle, hup, fun hp hall => ?_, Nat.le_of_not_lt hsize⟩
      by_contra hne
      simp [hall, hp, hne] at hend
    split at h
    · rename_i hitem
      split at h
      · exact .vacant hs ‹_› hitem (Except.ok.inj h).symm
      · cases h
    · rename_i target hitem
      split at h
      · rename_i hlast
        rw [Bool.and_eq_true, decide_eq_true_eq] at hlast
        exact .stop hs hlast.2 hitem (Except.ok.inj h).symm
      · rename_i hlast
        rw [Bool.and_eq_true, decide_eq_true_eq] at hlast
        exact .across hs hitem hlast h
    · rename_i item hlink hitem
      exact .down hs hitem (fun target ht => hlink target ht) h
  · cases h
  · cases h

section Turns

variable {items : List (String × Item)} (h : fs.root.at? address = some (.folder items))

include h

lemma descend_idle (hs : FilePath.isIdle s = true) :
    fs.descend purpose follow address (s :: segs) = fs.descend purpose follow address segs := by
  rw [descend, h]
  simp [hs]

lemma descend_up (hidle : FilePath.isIdle s = false) (hs : s = "..") :
    fs.descend purpose follow address (s :: segs) =
      fs.descend purpose follow address.dropLast segs := by
  subst hs
  rw [descend, h]
  simp [hidle]

lemma descend_down {other : List String} (hs : Names purpose s other) {item : Item}
    (hitem : items.lookup s = some item) (hlink : ∀ target, item ≠ .link target) :
    fs.descend .find follow address (s :: segs) =
      fs.descend .find follow (address ++ [s]) segs := by
  rw [descend, h]
  have hsize := Nat.not_lt_of_le hs.short
  cases item with
  | link target => exact absurd rfl (hlink target)
  | _ => simp [hs.not_idle, hs.ne_up, hsize, hitem]

lemma descend_across {other : List String} (hs : Names purpose s other) {target : String}
    (hitem : items.lookup s = some (.link target)) :
    fs.descend .find follow address (s :: segs) =
      follow (if FilePath.isAbsolute target then [] else address)
        (FilePath.segments target ++ segs) := by
  rw [descend, h]
  have hsize := Nat.not_lt_of_le hs.short
  simp [hs.not_idle, hs.ne_up, hsize, hitem]

end Turns

/-! ### Where paths lead -/

/-- The place is a name in a folder, or a folder; a path to write at leads to no link. -/
def Stands (fs : FileSystem) (purpose : Purpose) : Place → Prop
  | .taken a =>
    (∃ items, fs.root.at? a = some (.folder items)) ∨
      ∃ holder name items item, a = holder ++ [name] ∧
        fs.root.at? holder = some (.folder items) ∧ items.lookup name = some item ∧
        (purpose ≠ .enter → ∀ target, item ≠ .link target)
  | .free holder name =>
    ∃ items, fs.root.at? holder = some (.folder items) ∧ items.lookup name = none

lemma stands_of_descend
    (hfollow : ∀ a segs place, segs ≠ [] → follow a segs = .ok place → fs.Stands purpose place)
    (hstart : segs ≠ [] ∨ fs.Stands purpose (.taken address))
    (h : fs.descend purpose follow address segs = .ok place) : fs.Stands purpose place := by
  induction segs generalizing address with
  | nil =>
    rw [descend, Except.ok.injEq] at h
    exact h ▸ hstart.resolve_left fun hne => hne rfl
  | cons s segs ih =>
    obtain ⟨items, hitems, turn⟩ := turn_of_descend h
    cases turn with
    | idle hs h => exact ih (.inr (.inl ⟨items, hitems⟩)) h
    | up hidle hs h => exact ih (.inr (.inl (Item.exists_folder_dropLast hitems))) h
    | down hs hitem hlink h =>
      exact ih (.inr (.inr ⟨address, s, items, _, rfl, hitems, hitem, fun _ => hlink⟩)) h
    | across hs hitem hnot h =>
      exact hfollow _ _ _ (List.append_ne_nil_of_left_ne_nil (FilePath.segments_ne_nil _) _) h
    | stop hs hp hitem h =>
      rw [h]
      exact .inr ⟨address, s, items, _, rfl, hitems, hitem, fun hne => absurd hp hne⟩
    | vacant hs hlast hitem h => exact h ▸ ⟨items, hitems, hitem⟩

lemma stands_of_resolve {links : ℕ} (hsegs : segs ≠ [])
    (h : fs.resolve purpose links address segs = .ok place) : fs.Stands purpose place := by
  induction links generalizing address segs place with
  | zero =>
    refine stands_of_descend (fun a t p _ hp => ?_) (.inl hsegs) h
    cases hp
  | succ links ih => exact stands_of_descend (fun a t p ht hp => ih ht hp) (.inl hsegs) h

lemma resolve_of_locate {path : String} (h : fs.locate purpose path = .ok place) :
    pathFault? path = none ∧
      fs.resolve purpose maxLinks (fs.origin path) (FilePath.segments path) = .ok place := by
  rw [locate] at h
  split at h
  · cases h
  · exact ⟨‹_›, h⟩

def isPlain (path : String) : Bool :=
  !path.toList.contains '\x00' && decide (path.utf8ByteSize < pathLimit) && path != ""

lemma locate_of_isPlain {path : String} (h : isPlain path = true) :
    fs.locate purpose path =
      fs.resolve purpose maxLinks (fs.origin path) (FilePath.segments path) := by
  simp only [isPlain, Bool.and_eq_true, Bool.not_eq_true', decide_eq_true_eq, bne_iff_ne,
    List.contains_eq_mem, decide_eq_false_iff_not] at h
  have hfault : pathFault? path = none := by simp [pathFault?, h, Nat.not_le.mpr h.1.2]
  rw [locate, hfault]

lemma find_of_locate {path : String} {a : List String} {item : Item}
    (h : fs.locate .find path = .ok (.taken a)) (hitem : fs.root.at? a = some item) :
    fs.find path = .ok item := by
  rw [find, h]
  dsimp only [bind, Except.bind]
  rw [hitem]
  rfl

lemma find_of_taken {path : String} {a : List String} {item : Item} (h : isPlain path = true)
    (hplace : fs.resolve .find maxLinks (fs.origin path) (FilePath.segments path) = .ok (.taken a))
    (hitem : fs.root.at? a = some item) : fs.find path = .ok item :=
  find_of_locate ((locate_of_isPlain h).trans hplace) hitem

lemma find_of_free {path : String} {holder : List String} {name : String} (h : isPlain path = true)
    (hplace : fs.resolve .find maxLinks (fs.origin path) (FilePath.segments path) =
      .ok (.free holder name)) : fs.find path = .error .notFound := by
  rw [find, locate_of_isPlain h, hplace]
  rfl

lemma stands_of_locate {path : String} (h : fs.locate purpose path = .ok place) :
    fs.Stands purpose place :=
  stands_of_resolve (FilePath.segments_ne_nil path) (resolve_of_locate h).2

lemma Stands.not_link (h : fs.Stands .write place) (target : String) :
    fs.root.at? place.address ≠ some (.link target) := by
  intro hlink
  cases place with
  | taken a =>
    rcases h with ⟨items, hfolder⟩ | ⟨holder, name, items, item, rfl, hholder, hitem, hnot⟩
    · cases hlink.symm.trans hfolder
    · rw [Place.address, Item.at?_concat hholder, hitem, Option.some.injEq] at hlink
      exact hnot (by decide) target hlink
  | free holder name =>
    obtain ⟨items, hholder, hitem⟩ := h
    rw [Place.address, Item.at?_concat hholder, hitem] at hlink
    cases hlink

lemma Stands.exists_holder (h : fs.Stands purpose place)
    (hnot : ∀ items, fs.root.at? place.address ≠ some (.folder items)) :
    ∃ holder name items, place.address = holder ++ [name] ∧
      fs.root.at? holder = some (.folder items) ∧
      items.lookup name = fs.root.at? place.address := by
  cases place with
  | taken a =>
    rcases h with ⟨items, hfolder⟩ | ⟨holder, name, items, item, rfl, hholder, -, -⟩
    · exact absurd hfolder (hnot items)
    · exact ⟨holder, name, items, rfl, hholder, (Item.at?_concat hholder name).symm⟩
  | free holder name =>
    obtain ⟨items, hholder, -⟩ := h
    exact ⟨holder, name, items, rfl, hholder, (Item.at?_concat hholder name).symm⟩

/-! ### Reading what was written -/

/-- An item stands at an address in `fs'` where `fs` may have a file or a device or nothing. All
addresses that do not lead through it show the same. -/
structure Gains (fs fs' : FileSystem) (a : List String) (new : Item) : Prop where
  here : fs'.here = fs.here
  now : fs'.root.at? a = some new
  no_link : ∀ target, new ≠ .link target
  no_folder_before : ∀ items, fs.root.at? a ≠ some (.folder items)
  no_link_before : ∀ target, fs.root.at? a ≠ some (.link target)
  elsewhere : ∀ b, ¬ a <+: b → (fs'.root.at? b).map Item.face = (fs.root.at? b).map Item.face

namespace Gains

variable {fs' : FileSystem} {a : List String} {new : Item} {items : List (String × Item)}

lemma not_prefix (hg : Gains fs fs' a new) (h : fs.root.at? address = some (.folder items)) :
    ¬ a <+: address := by
  rintro ⟨rest, rfl⟩
  cases rest with
  | nil =>
    rw [List.append_nil] at h
    exact hg.no_folder_before items h
  | cons name rest =>
    rw [Item.at?_append, Option.bind_eq_some_iff] at h
    obtain ⟨holder, hholder, hfound⟩ := h
    obtain ⟨above, -, rfl, -⟩ := Item.exists_items_of_at?_cons hfound
    exact hg.no_folder_before above hholder

lemma exists_items (hg : Gains fs fs' a new) (h : fs.root.at? address = some (.folder items)) :
    ∃ items', fs'.root.at? address = some (.folder items') ∧
      (address ++ [s] = a → items'.lookup s = some new) ∧
      (address ++ [s] ≠ a → (items'.lookup s).map Item.face = (items.lookup s).map Item.face) := by
  have hface := hg.elsewhere address (hg.not_prefix h)
  rw [h, Option.map_some, Option.map_eq_some_iff] at hface
  obtain ⟨item, hitem, hfolder⟩ := hface
  cases item with
  | folder items' =>
    refine ⟨items', hitem, fun heq => ?_, fun hne => ?_⟩
    · rw [← Item.at?_concat hitem, heq, hg.now]
    · rw [← Item.at?_concat hitem, ← Item.at?_concat h]
      apply hg.elsewhere
      intro hpre
      rcases List.prefix_concat_iff.mp hpre with heq | hpre
      · exact hne heq.symm
      · exact hg.not_prefix h hpre
  | _ => cases hfolder

lemma descend (hg : Gains fs fs' a new) {follow' : List String → List String → Except OsError Place}
    (hfollow : ∀ b t, follow b t = .ok place → follow' b t = .ok (.taken a))
    (ha : place.address = a) (h : fs.descend .write follow address segs = .ok place) :
    fs'.descend .find follow' address segs = .ok (.taken a) := by
  induction segs generalizing address with
  | nil =>
    rw [FileSystem.descend, Except.ok.injEq] at h
    rw [FileSystem.descend, ← ha, ← h, Place.address]
  | cons s segs ih =>
    obtain ⟨items, hitems, turn⟩ := turn_of_descend h
    obtain ⟨items', hitems', hnew, hother⟩ := hg.exists_items (s := s) hitems
    cases turn with
    | idle hs h => rw [descend_idle hitems' hs]; exact ih h
    | up hidle hs h => rw [descend_up hitems' hidle hs]; exact ih h
    | @down hs item hitem hlink h =>
      by_cases hb : address ++ [s] = a
      · rw [descend_down hitems' hs (hnew hb) hg.no_link]
        exact ih h
      · have hface := hother hb
        rw [hitem, Option.map_some, Option.map_eq_some_iff] at hface
        obtain ⟨item', hitem', hsame⟩ := hface
        rw [descend_down hitems' hs hitem' fun target ht => ?_]
        · exact ih h
        · subst ht
          cases item with
          | link other => exact hlink other rfl
          | _ => cases hsame
    | @across hs target hitem hnot h =>
      have hb : address ++ [s] ≠ a := by
        intro hb
        apply hg.no_link_before target
        rw [← hb, Item.at?_concat hitems, hitem]
      have hface := hother hb
      rw [hitem, Option.map_some, Option.map_eq_some_iff] at hface
      obtain ⟨item', hitem', hsame⟩ := hface
      cases item' with
      | link other =>
        cases hsame
        rw [descend_across hitems' hs hitem']
        exact hfollow _ _ h
      | _ => cases hsame
    | stop hs hp hitem h => cases hp
    | vacant hs hlast hitem h =>
      subst h
      rw [descend_down hitems' hs (hnew ha) hg.no_link, hs.ends rfl hlast, FileSystem.descend]
      exact congrArg _ (congrArg _ ha)

lemma resolve (hg : Gains fs fs' a new) {links : ℕ} (ha : place.address = a)
    (h : fs.resolve .write links address segs = .ok place) :
    fs'.resolve .find links address segs = .ok (.taken a) := by
  induction links generalizing address segs with
  | zero =>
    refine hg.descend (fun b t ht => ?_) ha h
    cases ht
  | succ links ih => exact hg.descend (fun b t ht => ih ht) ha h

lemma find (hg : Gains fs fs' a new) {path : String} (ha : place.address = a)
    (h : fs.locate .write path = .ok place) : fs'.find path = .ok new := by
  obtain ⟨hfault, hresolve⟩ := resolve_of_locate h
  have horigin : fs'.origin path = fs.origin path := by rw [origin, origin, hg.here]
  have hlocate : fs'.locate .find path = .ok (.taken a) := by
    rw [locate, hfault, horigin]
    exact hg.resolve ha hresolve
  exact find_of_locate hlocate hg.now

end Gains

section Write

variable {path : String} {content : Bytes} {modified : Int} {fs' : FileSystem}

lemma write_cases (h : fs.write path content modified = .ok fs') :
    ∃ place, fs.locate .write path = .ok place ∧
      ((∃ d, fs.root.at? place.address = some (.device d) ∧ fs' = fs) ∨
        (∀ items, fs.root.at? place.address ≠ some (.folder items)) ∧
          fs' = fs.putAt (.file content modified) place.address) := by
  obtain ⟨place, hplace, h⟩ := ok_of_bind.mp h
  refine ⟨place, hplace, ?_⟩
  split at h
  · cases h
  · rename_i hdevice
    refine .inl ⟨_, hdevice, ?_⟩
    split at h
    · exact (Except.ok.inj h).symm
    · cases h
  · rename_i d _ hdevice
    exact .inl ⟨_, hdevice, (Except.ok.inj h).symm⟩
  · rename_i hfolder _ _
    exact .inr ⟨fun items hitems => hfolder items hitems, (Except.ok.inj h).symm⟩

/-- A file that was written holds what was written, unless there is a device in its place. -/
theorem read_write (h : fs.write path content modified = .ok fs')
    (hdevice : ∀ d, fs.find path ≠ .ok (.device d)) : fs'.read path = .ok content := by
  obtain ⟨place, hplace, ⟨d, hd, -⟩ | ⟨hfolder, rfl⟩⟩ := write_cases h
  · have hself : Gains fs fs place.address (.device d) :=
      { here := rfl
        now := hd
        no_link := by simp
        no_folder_before := by simp [hd]
        no_link_before := by simp [hd]
        elsewhere := fun _ _ => rfl }
    exact absurd (hself.find rfl hplace) (hdevice d)
  · have hstands := stands_of_locate hplace
    obtain ⟨holder, name, items, haddress, hholder, -⟩ := hstands.exists_holder hfolder
    have hgains : Gains fs (fs.putAt (.file content modified) place.address) place.address
        (.file content modified) :=
      { here := rfl
        now := Item.at?_put _ _ _
        no_link := by simp
        no_folder_before := hfolder
        no_link_before := hstands.not_link
        elsewhere := fun b hb => by
          rw [haddress] at hb ⊢
          exact Item.face_put hholder name _ hb }
    rw [read, hgains.find rfl hplace]
    rfl

end Write

def LeadsTo (fs : FileSystem) (purpose : Purpose) (path : String) (a : List String) : Prop :=
  ∃ place, fs.locate purpose path = .ok place ∧ place.address = a

section Effect

variable {path : String} {content : Bytes} {modified : Int} {fs' : FileSystem}

/-- Nothing changes but what the path leads to. -/
lemma same_write (h : fs.write path content modified = .ok fs') :
    Same (fs.LeadsTo .write path) fs fs' := by
  obtain ⟨place, hplace, ⟨d, -, rfl⟩ | ⟨hfolder, rfl⟩⟩ := write_cases h
  · exact .refl _ _
  · obtain ⟨holder, name, items, haddress, hholder, hitem⟩ :=
      (stands_of_locate hplace).exists_holder hfolder
    rw [haddress]
    refine (same_putAt hholder (fun below hbelow => ?_) fun _ _ => rfl).mono ?_
    · exact hfolder below (hitem.symm.trans hbelow)
    · rintro _ rfl
      exact ⟨place, hplace, haddress⟩

lemma fileAt?_write (h : fs.write path content modified = .ok fs') {a : List String}
    (ha : fs.LeadsTo .write path a) (hdevice : ∀ d, fs.root.at? a ≠ some (.device d)) :
    fs'.fileAt? a = some content := by
  obtain ⟨place, hplace, rfl⟩ := ha
  obtain ⟨place', hplace', ⟨d, hd, -⟩ | ⟨-, rfl⟩⟩ := write_cases h
  · obtain rfl := Except.ok.inj (hplace.symm.trans hplace')
    exact absurd hd (hdevice d)
  · obtain rfl := Except.ok.inj (hplace.symm.trans hplace')
    rw [fileAt?, putAt, Item.at?_put]

end Effect

end FileSystem

end SettingCatalog
