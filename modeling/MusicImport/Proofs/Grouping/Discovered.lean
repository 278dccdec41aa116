import MusicImport.Proofs.Grouping.Partition
import MusicImport.Proofs.Grouping.Walked

/-! The groups below a root partition its audio files. -/
namespace MusicImport

open FilePath DiscSet

theorem DiscSet.Among.perm {dirs : List AudioDirectory} {sets sets' : List DiscSet}
    (h : Among dirs sets) (hperm : sets'.Perm sets) : Among dirs sets' where
  apart := hperm.symm.pairwise h.apart fun hab hba => hab hba.symm
  disc s hs := h.disc s (hperm.mem_iff.mp hs)
  once := apart_of_perm ((hperm.flatMap_right _).map _) h.once
  several s hs := h.several s (hperm.mem_iff.mp hs)
  inOrder s hs := h.inOrder s (hperm.mem_iff.mp hs)

namespace FileTree

variable {t : FileTree} {root : FilePath} {singletons follow : Bool} {plans : List GroupPlan}

/-- The audio files that are found at a root, which may be one of them. -/
def found (t : FileTree) (root : FilePath) (follow : Bool) : List FilePath :=
  if t.isFile root then [root] else t.audioFiles root follow

theorem Proper.found_nodup (h : t.Proper) (root : FilePath) (follow : Bool) :
    (t.found root follow).Nodup := by
  unfold found
  split
  · exact List.nodup_singleton _
  · exact h.audioFiles_nodup root

/-- What the groups below a root are. -/
theorem discover_ok (h : t.discover root singletons follow = .ok plans) :
    (t.isFile root ∧ plans = [⟨root.text, [root], false⟩]) ∨
    ¬ t.isFile root ∧ plans =
      let dirs := byDirectory root (t.found root follow)
      if singletons then singletonPlans dirs else albumPlans dirs := by
  unfold discover at h
  split at h
  · cases h
  · split at h
    next hfile =>
      split at h
      · cases h
        exact .inl ⟨hfile, rfl⟩
      · cases h
    next hfile =>
      cases h
      exact .inr ⟨hfile, by simp [found, hfile]⟩

theorem discover_file (h : t.isFile root) (haudio : isAudioFile root) :
    t.discover root singletons follow = .ok [⟨root.text, [root], false⟩] := by
  have hthere : t.exists? root = true := by
    unfold isFile at h
    unfold exists?
    cases hfind : t.find? root with
    | none => simp [hfind] at h
    | some node => rfl
  unfold discover
  rw [hthere, h, haudio]
  rfl

theorem discover_directory (hthere : t.exists? root = true) (hfile : t.isFile root = false) :
    t.discover root false follow = .ok (albumPlans (byDirectory root (t.audioFiles root follow))) := by
  unfold discover
  rw [hthere, hfile]
  rfl

theorem single_partitions (root : FilePath) : Partitions root [root] [⟨root.text, [root], false⟩] where
  files_perm := .refl _
  nonempty := by simp
  laidOut := by simp
  inOrder := List.pairwise_singleton _ _

/-- The groups below a root hold every audio file of the walk once, each in one group. An album holds
loose files first and then its discs in ascending order, and the groups stand in the order in which the
first of their directories was seen. For albums this does not depend on which set of discs claims loose
files first. -/
theorem discover_partitions (h : t.discover root singletons follow = .ok plans) :
    Partitions root (t.found root follow) plans ∧
    (t.Proper → (plans.flatMap (·.files)).Nodup) ∧
    ∀ sets, sets.Perm (DiscSet.ofDirectories (byDirectory root (t.found root follow))) →
      Partitions root (t.found root follow)
        (albumPlansFrom (byDirectory root (t.found root follow)) sets) := by
  have hfiled := filed_byDirectory root (t.found root follow)
  have hsets := ofDirectories_among hfiled.apart
  have hplans : Partitions root (t.found root follow) plans := by
    obtain ⟨hfile, rfl⟩ | ⟨hfile, rfl⟩ := discover_ok h
    · have hfound : t.found root follow = [root] := by simp [found, hfile]
      rw [hfound]
      exact single_partitions root
    · cases singletons with
      | true => exact singletonPlans_partitions hfiled
      | false => exact albumPlansFrom_partitions hfiled hsets
  refine ⟨hplans, fun hproper => ?_, fun sets hperm => ?_⟩
  · exact hplans.files_perm.nodup_iff.mpr (hproper.found_nodup root follow)
  · exact albumPlansFrom_partitions hfiled (hsets.perm hperm)

variable {place : Place} {name : String} {names : List String} {content : ByteArray}

theorem filesBelow_single (h : t.children place = [(name, .file content)]) (fuel : Nat)
    (above : List Place) (path : FilePath) :
    t.filesBelow follow (fuel + 1) above place path = [path.join ⟨name⟩] := by
  rw [filesBelow, h]
  rfl

theorem filesBelow_directories (h : t.children place = names.map (·, .directory)) (fuel : Nat)
    (above : List Place) (path : FilePath) :
    t.filesBelow follow (fuel + 1) above place path = names.flatMap fun name =>
      t.filesBelow follow fuel (place :: above) (place ++ [name]) (path.join ⟨name⟩) := by
  rw [filesBelow, h, List.flatMap_map]

/-- The discs of an album in a directory with its name, and beside that directory two more. -/
def wallTree : FileTree :=
  { nodes := [(["m"], .directory), (["m", "Wall"], .directory), (["m", "Wall", "Disc 1"], .directory),
      (["m", "Wall", "Disc 1", "a.mp3"], .file .empty), (["m", "Wall", "Disc 2"], .directory),
      (["m", "Wall", "Disc 2", "b.mp3"], .file .empty), (["m", "Wall (Disc 1)"], .directory),
      (["m", "Wall (Disc 1)", "c.mp3"], .file .empty), (["m", "Wall (Disc 2)"], .directory),
      (["m", "Wall (Disc 2)", "d.mp3"], .file .empty)] }

theorem wallTree_filesBelow : wallTree.filesBelow false 11 [] ["m"] ⟨"m"⟩ =
    [⟨"m/Wall/Disc 1/a.mp3"⟩, ⟨"m/Wall/Disc 2/b.mp3"⟩, ⟨"m/Wall (Disc 1)/c.mp3"⟩,
      ⟨"m/Wall (Disc 2)/d.mp3"⟩] := by
  have hroot : wallTree.children ["m"] =
      ["Wall", "Wall (Disc 1)", "Wall (Disc 2)"].map (·, .directory) :=
    List.mergeSort_of_pairwise (by decide)
  have hwall : wallTree.children ["m", "Wall"] = ["Disc 1", "Disc 2"].map (·, .directory) :=
    List.mergeSort_of_pairwise (by decide)
  have ha : wallTree.children ["m", "Wall", "Disc 1"] = [("a.mp3", .file .empty)] :=
    List.mergeSort_of_pairwise (by decide)
  have hb : wallTree.children ["m", "Wall", "Disc 2"] = [("b.mp3", .file .empty)] :=
    List.mergeSort_of_pairwise (by decide)
  have hc : wallTree.children ["m", "Wall (Disc 1)"] = [("c.mp3", .file .empty)] :=
    List.mergeSort_of_pairwise (by decide)
  have hd : wallTree.children ["m", "Wall (Disc 2)"] = [("d.mp3", .file .empty)] :=
    List.mergeSort_of_pairwise (by decide)
  rw [filesBelow_directories hroot]
  simp only [List.flatMap_cons, List.flatMap_nil, List.cons_append, List.nil_append]
  rw [filesBelow_directories hwall, filesBelow_single hc, filesBelow_single hd]
  simp only [List.flatMap_cons, List.flatMap_nil, List.cons_append, List.nil_append]
  rw [filesBelow_single ha, filesBelow_single hb]
  decide

/-- The two albums below the root have the same name. -/
def wallPlans : List GroupPlan :=
  [⟨"m/Wall", [⟨"m/Wall/Disc 1/a.mp3"⟩, ⟨"m/Wall/Disc 2/b.mp3"⟩], true⟩,
    ⟨"m/Wall", [⟨"m/Wall (Disc 1)/c.mp3"⟩, ⟨"m/Wall (Disc 2)/d.mp3"⟩], true⟩]

theorem wallTree_discover : wallTree.discover ⟨"m"⟩ false false = .ok wallPlans := by
  have hroot : wallTree.directoryAt? ⟨"m"⟩ = some ["m"] := by decide
  have hfound : wallTree.audioFiles ⟨"m"⟩ false = [⟨"m/Wall/Disc 1/a.mp3"⟩, ⟨"m/Wall/Disc 2/b.mp3"⟩,
      ⟨"m/Wall (Disc 1)/c.mp3"⟩, ⟨"m/Wall (Disc 2)/d.mp3"⟩] := by
    rw [audioFiles, hroot]
    show (wallTree.filesBelow false 11 [] ["m"] ⟨"m"⟩).filter isAudioFile = _
    rw [wallTree_filesBelow]
    decide +kernel
  rw [discover_directory (by decide) (by decide), hfound, albumPlans, ofDirectories_eq (by decide +kernel)]
  decide +kernel

theorem wallTree_proper : wallTree.Proper := ⟨by decide, by decide⟩

theorem discover_partitions_wall : wallTree.discover ⟨"m"⟩ false false = .ok wallPlans ∧
    Partitions ⟨"m"⟩ (wallTree.found ⟨"m"⟩ false) wallPlans ∧
    (wallPlans.flatMap (·.files)).Nodup := by
  obtain ⟨hplans, honce, -⟩ := discover_partitions wallTree_discover
  exact ⟨wallTree_discover, hplans, honce wallTree_proper⟩

end FileTree
end MusicImport
