import MusicImport.Proofs.Grouping.Keys
import MusicImport.Proofs.Journal.Snapshot
import MusicImport.Proofs.Session.Sweeping

/-! The children that albums are split into. A child has the key of its album with a number sign and its
place behind it. By that it is told from the other children of a scan as far as the albums are told apart,
but nothing keeps a directory from having such a name, and then the journal tells the child the steps of
that directory. -/
namespace MusicImport

open FilePath DiscSet

/-- A number has no number sign in it, so the key of a child is cut before the number. -/
theorem GroupKey.cutLast?_child (key : GroupKey) (i : Nat) :
    Text.cutLast? '#' (key.child i).toList = some (key.toList, (toString (i + 1)).toList) := by
  have hchars : (key.child i).toList = key.toList ++ '#' :: (toString (i + 1)).toList := by
    simp [GroupKey.child]
  rw [hchars]
  exact cutLast?_append (not_mem_digits rfl (i + 1))

/-- A child tells its album and its place in it. -/
theorem GroupKey.child_eq_iff {key other : GroupKey} {i j : Nat} :
    key.child i = other.child j ↔ key = other ∧ i = j := by
  constructor
  · intro h
    have hcut := other.cutLast?_child j
    rw [← h, key.cutLast?_child i, Option.some.injEq, Prod.mk.injEq] at hcut
    have hnumber := toList_toString_injective hcut.2
    exact ⟨String.toList_inj.mp hcut.1, by omega⟩
  · rintro ⟨rfl, rfl⟩
    rfl

variable {plans : List GroupPlan} {read : List FilePath → List Track}

/-- The tasks of the albums of a scan, given what tracks are read of files. -/
def albumTasks (plans : List GroupPlan) (read : List FilePath → List Track) : List Task :=
  (plans.filterMap fun p => p.task? (read p.files)).filter (·.isAlbum)

/-- The children that all these albums are split into. -/
def childrenOf (plans : List GroupPlan) (read : List FilePath → List Track) : List Task :=
  (albumTasks plans read).flatMap Task.split

theorem mem_albumTasks {a : Task} (h : a ∈ albumTasks plans read) :
    a.tracks ≠ [] ∧ ∃ p ∈ plans, p.isAlbum = true ∧ p.key = a.key := by
  obtain ⟨hmem, halbum⟩ := List.mem_filter.mp h
  obtain ⟨p, hp, htask⟩ := List.mem_filterMap.mp hmem
  refine ⟨(Session.task?_fresh htask).tracks, p, hp, ?_, (Session.task?_key htask).symm⟩
  cases htracks : read p.files with
  | nil => simp [htracks, GroupPlan.task?] at htask
  | cons first rest =>
    rw [htracks] at htask
    obtain rfl := Option.some.inj htask
    exact halbum

/-- Every task keeps the key of its group, and the tasks stand in the order of the groups. -/
theorem albumTasks_keys_sublist (plans : List GroupPlan) (read : List FilePath → List Track) :
    ((albumTasks plans read).map (·.key)).Sublist (plans.map (·.key)) := by
  have htasks : ((plans.filterMap fun p => p.task? (read p.files)).map (·.key)).Sublist
      (plans.map (·.key)) := by
    induction plans with
    | nil => exact .slnil
    | cons p rest ih =>
      rw [List.filterMap_cons]
      split
      · exact ih.cons _
      next htask =>
        rw [List.map_cons, Session.task?_key htask]
        exact ih.cons_cons _
  exact (List.filter_sublist.map _).trans htasks

theorem albumTasks_eq_nil (h : ∀ p ∈ plans, p.isAlbum = false) : albumTasks plans read = [] := by
  rw [List.eq_nil_iff_forall_not_mem]
  intro a ha
  obtain ⟨-, p, hp, halbum, -⟩ := mem_albumTasks ha
  rw [h p hp] at halbum
  cases halbum

theorem childrenOf_keys (plans : List GroupPlan) (read : List FilePath → List Track) :
    (childrenOf plans read).map (·.key) =
      (albumTasks plans read).flatMap fun a => (List.range a.tracks.length).map a.key.child := by
  unfold childrenOf
  rw [List.map_flatMap]
  simp only [Session.split_keys]

theorem mem_childrenOf_keys {key : GroupKey} : key ∈ (childrenOf plans read).map (·.key) ↔
    ∃ a ∈ albumTasks plans read, ∃ i < a.tracks.length, a.key.child i = key := by
  rw [childrenOf_keys]
  simp

/-- The children have keys of their own exactly if no group has the key of a track of an album. -/
theorem childrenOf_keys_ne_iff : (∀ c ∈ childrenOf plans read, ∀ p ∈ plans, c.key ≠ p.key) ↔
    ∀ a ∈ albumTasks plans read, ∀ i < a.tracks.length, ¬ ∃ p ∈ plans, p.key = a.key.child i := by
  constructor
  · rintro hfree a ha i hi ⟨p, hp, hkey⟩
    obtain ⟨c, hc, hckey⟩ := List.mem_map.mp (mem_childrenOf_keys.mpr ⟨a, ha, i, hi, rfl⟩)
    exact hfree c hc p hp (hckey.trans hkey.symm)
  · intro hfree c hc p hp hkey
    obtain ⟨a, ha, i, hi, hchild⟩ := mem_childrenOf_keys.mp (List.mem_map_of_mem hc)
    exact hfree a ha i hi ⟨p, hp, hkey.symm.trans hchild.symm⟩

/-- Children have one key only if their albums have. -/
theorem childrenOf_keys_nodup_iff :
    ((childrenOf plans read).map (·.key)).Nodup ↔ ((albumTasks plans read).map (·.key)).Nodup := by
  have hown : ∀ a : Task, ((List.range a.tracks.length).map a.key.child).Nodup := by
    intro a
    refine List.Nodup.map ?_ List.nodup_range
    intro i j hij
    exact (GroupKey.child_eq_iff.mp hij).2
  have hpair : ∀ {a b : Task}, a ∈ albumTasks plans read → b ∈ albumTasks plans read →
      (List.Disjoint ((List.range a.tracks.length).map a.key.child)
        ((List.range b.tracks.length).map b.key.child) ↔ a.key ≠ b.key) := by
    intro a b ha hb
    constructor
    · intro hdisjoint hkey
      have hfirst : ∀ c ∈ albumTasks plans read,
          c.key.child 0 ∈ (List.range c.tracks.length).map c.key.child := by
        intro c hc
        have hpos : 0 < c.tracks.length := List.length_pos_iff.mpr (mem_albumTasks hc).1
        exact List.mem_map_of_mem (List.mem_range.mpr hpos)
      exact hdisjoint (hfirst a ha) (hkey ▸ hfirst b hb)
    · intro hkey key hka hkb
      obtain ⟨i, -, rfl⟩ := List.mem_map.mp hka
      obtain ⟨j, -, hj⟩ := List.mem_map.mp hkb
      exact hkey (GroupKey.child_eq_iff.mp hj).1.symm
  rw [childrenOf_keys, List.nodup_flatMap, List.nodup_iff_pairwise_ne, List.pairwise_map]
  constructor
  · rintro ⟨-, hall⟩
    exact hall.imp_of_mem fun ha hb hab => (hpair ha hb).mp hab
  · intro hall
    exact ⟨fun a _ => hown a, hall.imp_of_mem fun ha hb hab => (hpair ha hb).mpr hab⟩

variable {dirs : List AudioDirectory} {sets : List DiscSet}

/-- A key that a directory on its own has, or a set of discs. -/
def Taken (dirs : List AudioDirectory) (sets : List DiscSet) (key : GroupKey) : Prop :=
  (∃ d ∈ dirs, setOf? (claimLoose dirs sets) d.path = none ∧ d.path.text = key) ∨
    ∃ s ∈ sets, s.keyPath.text = key

theorem mem_albumKeys_iff (hdirs : dirs.Pairwise fun a b => ¬ a.path.same b.path)
    (hsets : Among dirs sets) {key : GroupKey} :
    (∃ p ∈ albumPlansFrom dirs sets, p.key = key) ↔ Taken dirs sets key := by
  have hclaims := claims_claimLoose dirs sets
  constructor
  · rintro ⟨p, hp, rfl⟩
    obtain ⟨d, hd, rfl⟩ := mem_emitAlbums_iff.mp hp
    rcases key_albumOf dirs (claimLoose dirs sets) d with ⟨hnone, hkey⟩ | ⟨i, c, -, hc, hkey⟩
    · exact .inl ⟨d, hd, hnone, hkey.symm⟩
    · exact .inr ⟨c.discs, hclaims.discs_mem (List.mem_of_getElem? hc), hkey.symm⟩
  · rintro (⟨d, hd, hnone, rfl⟩ | ⟨s, hs, rfl⟩)
    · refine ⟨_, mem_emitAlbums_iff.mpr ⟨d, hd, rfl⟩, ?_⟩
      rcases key_albumOf dirs (claimLoose dirs sets) d with ⟨-, hkey⟩ | ⟨i, c, hset, -, -⟩
      · exact hkey
      · rw [hnone] at hset
        cases hset
    · obtain ⟨c, hc, rfl⟩ := hclaims.exists_discs hs
      obtain ⟨i, hi⟩ := List.mem_iff_getElem?.mp hc
      obtain ⟨d, hd, -, hkey⟩ := exists_key hdirs hsets hi
      exact ⟨_, mem_emitAlbums_iff.mpr ⟨d, (leaders_sublist [] dirs).subset hd, rfl⟩, hkey⟩

/-- The journal that imports of these groups have written. -/
def JournalSnapshot.WrittenFor (plans : List GroupPlan) (j : JournalSnapshot) : Prop :=
  ∃ es, (∀ e ∈ es, ∃ p ∈ plans, p.key = e.key) ∧ j = ofEntries es

theorem JournalSnapshot.WrittenFor.steps_eq_nil {j : JournalSnapshot} {key : GroupKey}
    (h : j.WrittenFor plans) (hkey : ∀ p ∈ plans, key ≠ p.key) : j.completedSteps key = [] := by
  obtain ⟨es, hes, rfl⟩ := h
  rw [List.eq_nil_iff_forall_not_mem]
  intro step hstep
  obtain ⟨e, he, -, -⟩ := mem_completedSteps.mp hstep
  rw [get?_ofEntries] at he
  obtain ⟨hmem, hekey⟩ := mem_of_latest? he
  obtain ⟨p, hp, hpe⟩ := hes e hmem
  exact hkey p hp (hekey.symm.trans hpe.symm)

/-- A failed group has its steps in the journal. -/
theorem JournalSnapshot.exists_writtenFor {p : GroupPlan} (hp : p ∈ plans) (steps : List ApplyStep) :
    ∃ j, JournalSnapshot.WrittenFor plans j ∧ j.completedSteps p.key = steps := by
  refine ⟨_, ⟨[⟨p.key, .failed, .epoch, steps⟩], ?_, rfl⟩, ?_⟩
  · simpa using ⟨p, hp, rfl⟩
  · simp [ofEntries, completedSteps, get?, insert]

namespace FileTree

variable {t : FileTree} {root : FilePath} {singletons follow : Bool}

/-- The groups of a scan are albums of directories and sets of discs, or none of them is an album. -/
theorem discover_albums (h : t.discover root singletons follow = .ok plans) :
    (∀ p ∈ plans, p.isAlbum = false) ∨ plans = albumPlans (byDirectory root (t.found root follow)) := by
  rcases discover_ok h with ⟨-, rfl⟩ | ⟨-, rfl⟩
  · left
    simp
  · cases singletons with
    | false => exact .inr rfl
    | true =>
      left
      intro p hp
      obtain ⟨d, -, hd⟩ := List.mem_flatMap.mp hp
      obtain ⟨f, -, rfl⟩ := List.mem_map.mp hd
      rfl

/-- The keys of the children of a scan are distinct exactly if those of its albums are, which is so where
no set of discs shadows another. None of them is the key of a group of the scan exactly if no directory and
no set of discs has the key that a track of an album would get. Just the children without the key of a group
are told no steps by any journal of the scan, and those are applied as if there was none. -/
theorem discover_children (h : t.discover root singletons follow = .ok plans)
    (read : List FilePath → List Track) :
    let dirs := byDirectory root (t.found root follow)
    let sets := ofDirectories dirs
    (((childrenOf plans read).map (·.key)).Nodup ↔ ((albumTasks plans read).map (·.key)).Nodup) ∧
    ((∀ s ∈ sets, ∀ u ∈ sets, ¬ Shadows s u) → ((childrenOf plans read).map (·.key)).Nodup) ∧
    ((∀ c ∈ childrenOf plans read, ∀ p ∈ plans, c.key ≠ p.key) ↔
      ∀ a ∈ albumTasks plans read, ∀ i < a.tracks.length, ¬ Taken dirs sets (a.key.child i)) ∧
    ∀ c ∈ childrenOf plans read,
      ((∀ p ∈ plans, c.key ≠ p.key) ↔
        ∀ j, JournalSnapshot.WrittenFor plans j → j.completedSteps c.key = []) ∧
      ((∀ p ∈ plans, c.key ≠ p.key) → ∀ (env : Environment) (x : Task), x.key = c.key →
        env.journal.WrittenFor plans →
        Session.apply env x = Session.applyAll env x (x.chosen.getD .asIs) []) := by
  intro dirs sets
  have hdirs : dirs.Pairwise fun a b => ¬ a.path.same b.path :=
    (filed_byDirectory root (t.found root follow)).apart
  have hsets : Among dirs sets := ofDirectories_among hdirs
  refine ⟨childrenOf_keys_nodup_iff, ?_, ?_, fun c _ => ⟨⟨?_, ?_⟩, ?_⟩⟩
  · intro hapart
    rw [childrenOf_keys_nodup_iff]
    rcases discover_albums h with hnone | rfl
    · rw [albumTasks_eq_nil hnone]
      exact List.nodup_nil
    · exact ((keys_nodup_iff hdirs hsets).mpr hapart).sublist (albumTasks_keys_sublist _ read)
  · rw [childrenOf_keys_ne_iff]
    rcases discover_albums h with hnone | rfl
    · rw [albumTasks_eq_nil hnone]
      simp
    · refine forall₂_congr fun a _ => forall₂_congr fun i _ => not_congr ?_
      exact mem_albumKeys_iff hdirs hsets
  · intro hfree j hj
    exact hj.steps_eq_nil hfree
  · rintro hsteps p hp hkey
    obtain ⟨j, hj, hjsteps⟩ := JournalSnapshot.exists_writtenFor hp [.transferFiles]
    rw [← hkey, hsteps j hj] at hjsteps
    cases hjsteps
  · intro hfree env x hx hj
    have hnone : env.journal.completedSteps x.key = [] := by
      rw [hx]
      exact hj.steps_eq_nil hfree
    rw [Session.apply_first (by simp [hnone]), hnone]

/-- An album, and beside it another that is named as the first track of it. -/
def hashTree : FileTree :=
  { nodes := [(["m"], .directory), (["m", "a"], .directory), (["m", "a", "x.mp3"], .file .empty),
      (["m", "a#1"], .directory), (["m", "a#1", "y.mp3"], .file .empty)] }

def hashPlans : List GroupPlan :=
  [⟨"m/a", [⟨"m/a/x.mp3"⟩], true⟩, ⟨"m/a#1", [⟨"m/a#1/y.mp3"⟩], true⟩]

theorem hashTree_discover : hashTree.discover ⟨"m"⟩ false false = .ok hashPlans := by
  have hroot : hashTree.children ["m"] = ["a", "a#1"].map (·, .directory) :=
    List.mergeSort_of_pairwise (by decide)
  have hx : hashTree.children ["m", "a"] = [("x.mp3", .file .empty)] :=
    List.mergeSort_of_pairwise (by decide)
  have hy : hashTree.children ["m", "a#1"] = [("y.mp3", .file .empty)] :=
    List.mergeSort_of_pairwise (by decide)
  have hfound : hashTree.audioFiles ⟨"m"⟩ false = [⟨"m/a/x.mp3"⟩, ⟨"m/a#1/y.mp3"⟩] := by
    have hplace : hashTree.directoryAt? ⟨"m"⟩ = some ["m"] := by decide
    rw [audioFiles, hplace]
    show (hashTree.filesBelow false 6 [] ["m"] ⟨"m"⟩).filter isAudioFile = _
    rw [filesBelow_directories hroot]
    simp only [List.flatMap_cons, List.flatMap_nil, List.cons_append, List.nil_append]
    rw [filesBelow_single hx, filesBelow_single hy]
    decide +kernel
  rw [discover_directory (by decide) (by decide), hfound, albumPlans, ofDirectories_eq (by decide +kernel)]
  decide +kernel

/-- The tracks of files that have no tags. -/
def untagged (files : List FilePath) : List Track := files.map fun f => { path := f }

theorem discover_children_hash : hashTree.discover ⟨"m"⟩ false false = .ok hashPlans ∧
    (∃ c ∈ childrenOf hashPlans untagged, c.key = "m/a#1") ∧
    ∃ j, JournalSnapshot.WrittenFor hashPlans j ∧ j.completedSteps "m/a#1" ≠ [] := by
  obtain ⟨-, -, -, hchildren⟩ := discover_children hashTree_discover untagged
  obtain ⟨c, hc, hkey⟩ : ∃ c ∈ childrenOf hashPlans untagged, c.key = "m/a#1" :=
    ⟨_, .head _, by decide⟩
  refine ⟨hashTree_discover, ⟨c, hc, hkey⟩, ?_⟩
  by_contra hnone
  refine (hchildren c hc).1.mpr ?_ _ (.tail _ (.head _)) hkey
  intro j hj
  by_contra hsteps
  exact hnone ⟨j, hj, hkey ▸ hsteps⟩

/-- A child can have the key of another group of the scan. -/
theorem child_key_not_free :
    ¬ ∀ (t : FileTree) (root : FilePath) (singletons follow : Bool) (plans : List GroupPlan)
      (read : List FilePath → List Track), t.Proper → t.discover root singletons follow = .ok plans →
      ((childrenOf plans read).map (·.key)).Nodup ∧
      (∀ c ∈ childrenOf plans read, ∀ p ∈ plans, c.key ≠ p.key) ∧
      ∀ c ∈ childrenOf plans read, ∀ j, JournalSnapshot.WrittenFor plans j →
        j.completedSteps c.key = [] := by
  intro h
  have hproper : hashTree.Proper := ⟨by decide, by decide⟩
  obtain ⟨-, hfree, -⟩ := h hashTree ⟨"m"⟩ false false hashPlans untagged hproper hashTree_discover
  exact hfree _ (.head _) ⟨"m/a#1", [⟨"m/a#1/y.mp3"⟩], true⟩ (by decide) (by decide)

end FileTree
end MusicImport
