import Mathlib.Data.List.Nodup
import MusicImport.Grouping.Plan

/-! The walk of a tree. Where every place is listed once, a walk comes upon no path twice, also where
links lead to one directory on several ways. -/
namespace MusicImport

namespace FilePath

variable {p f : FilePath} {name other : String}

/-- What stands in front of a name that is joined to a path. -/
def lead (p : FilePath) : List Char :=
  if p.text = "" then []
  else if p.text.toList.getLast? == some '/' then p.text.toList
  else p.text.toList ++ ['/']

theorem join_name (p : FilePath) (h : '/' ∉ name.toList) :
    (p.join ⟨name⟩).text.toList = p.lead ++ name.toList := by
  have hrelative : (FilePath.mk name).isAbsolute = false := by
    unfold isAbsolute
    cases hname : name.toList with
    | nil => rfl
    | cons c cs =>
      have : c ≠ '/' := fun hc => h (by simp [hname, hc])
      simpa using this
  unfold join lead
  rw [hrelative]
  simp only [Bool.false_eq_true, if_false]
  split
  · simp
  · split <;> simp

/-- A path that leads through a name below another path, or ends with it. -/
def Through (p : FilePath) (name : String) (f : FilePath) : Prop :=
  ∃ rest, f.text.toList = p.lead ++ name.toList ++ rest ∧ (rest = [] ∨ rest.head? = some '/')

theorem takeWhile_name {cs rest : List Char} (hcs : '/' ∉ cs)
    (hrest : rest = [] ∨ rest.head? = some '/') :
    (cs ++ rest).takeWhile (· != '/') = cs := by
  have hall : ∀ c ∈ cs, (c != '/') = true := by
    intro c hc
    have : c ≠ '/' := fun h => hcs (h ▸ hc)
    simpa using this
  rw [List.takeWhile_append_of_pos hall]
  obtain rfl | hhead := hrest
  · simp
  · cases rest with
    | nil => simp at hhead
    | cons c rest =>
      obtain rfl : c = '/' := by simpa using hhead
      simp

/-- A path leads through one name only. -/
theorem Through.unique (h : Through p name f) (h' : Through p other f) (hname : '/' ∉ name.toList)
    (hother : '/' ∉ other.toList) : name = other := by
  obtain ⟨rest, hf, hrest⟩ := h
  obtain ⟨rest', hf', hrest'⟩ := h'
  rw [hf, List.append_assoc, List.append_assoc, List.append_cancel_left_eq] at hf'
  have hcut := congrArg (List.takeWhile (· != '/')) hf'
  rw [takeWhile_name hname hrest, takeWhile_name hother hrest'] at hcut
  exact String.toList_inj.mp hcut

theorem through_join (h : '/' ∉ name.toList) : Through p name (p.join ⟨name⟩) :=
  ⟨[], by rw [join_name p h, List.append_nil], .inl rfl⟩

/-- Below a name of a path everything leads through it. -/
theorem Through.of_below (h : '/' ∉ name.toList) (hne : name ≠ "")
    (hbelow : Through (p.join ⟨name⟩) other f) : Through p name f := by
  obtain ⟨rest, hf, -⟩ := hbelow
  have htext := join_name p h
  have hchars : name.toList ≠ [] := by simpa using hne
  have hlead : (p.join ⟨name⟩).lead = p.lead ++ name.toList ++ ['/'] := by
    have hne' : (p.join ⟨name⟩).text ≠ "" := by
      intro hempty
      rw [hempty] at htext
      simp [hchars] at htext
    have hlast : (p.join ⟨name⟩).text.toList.getLast? ≠ some '/' := by
      rw [htext, List.getLast?_append_of_ne_nil _ hchars]
      exact fun hslash => h (List.mem_of_getLast? hslash)
    rw [lead, if_neg hne', if_neg (by simpa using hlast), htext]
  refine ⟨'/' :: (other.toList ++ rest), ?_, .inr rfl⟩
  rw [hf, hlead]
  simp

end FilePath

namespace FileTree

open FilePath

variable {t : FileTree} {follow : Bool}

/-- Every place is listed once, by names that are no paths. -/
structure Proper (t : FileTree) : Prop where
  once : (t.nodes.map (·.1)).Nodup
  names : ∀ x ∈ t.nodes, ∀ name ∈ x.1, name ≠ "" ∧ '/' ∉ name.toList

/-- What is listed as an entry of a directory is at the place with that name. -/
theorem place_of_entry {p q : Place} {n : Node} {x : String × Node}
    (h : (match q.getLast? with
      | some name => if q.dropLast = p then some (name, n) else none
      | none => none) = some x) : q = p ++ [x.1] ∧ x.2 = n := by
  split at h
  next name hlast =>
    split at h
    next hparent =>
      cases h
      obtain ⟨init, rfl⟩ := List.getLast?_eq_some_iff.mp hlast
      exact ⟨by simp [← hparent], rfl⟩
    · cases h
  · cases h

theorem mem_children {p : Place} {x : String × Node} (h : x ∈ t.children p) :
    (p ++ [x.1], x.2) ∈ t.nodes := by
  unfold children at h
  rw [List.mem_mergeSort, List.mem_filterMap] at h
  obtain ⟨⟨q, n⟩, hmem, hx⟩ := h
  obtain ⟨rfl, hn⟩ := place_of_entry hx
  exact hn ▸ hmem

namespace Proper

theorem child_name (h : t.Proper) {p : Place} {x : String × Node} (hx : x ∈ t.children p) :
    x.1 ≠ "" ∧ '/' ∉ x.1.toList :=
  h.names _ (mem_children hx) x.1 (by simp)

theorem children_nodup (h : t.Proper) (p : Place) : ((t.children p).map (·.1)).Nodup := by
  unfold children
  refine ((List.mergeSort_perm _ _).map _).nodup_iff.mpr ?_
  rw [List.Nodup, List.pairwise_map, List.pairwise_filterMap]
  refine (List.pairwise_map.mp h.once).imp fun {a b} hne x hx y hy hname => ?_
  exact hne ((place_of_entry hx).1.trans (hname ▸ (place_of_entry hy).1.symm))

/-- A list of paths without repetition, all of which lead through one name. -/
def OnceThrough (path : FilePath) (name : String) (fs : List FilePath) : Prop :=
  fs.Nodup ∧ ∀ f ∈ fs, path.Through name f

/-- Entries with different names have nothing in common. -/
theorem flatMap_once (h : t.Proper) (place : Place) {path : FilePath}
    {g : String × Node → List FilePath} (hg : ∀ x ∈ t.children place, OnceThrough path x.1 (g x)) :
    ((t.children place).flatMap g).Nodup ∧
      ∀ f ∈ (t.children place).flatMap g, ∃ name, '/' ∉ name.toList ∧ path.Through name f := by
  refine ⟨List.nodup_flatMap.mpr ⟨fun x hx => (hg x hx).1, ?_⟩, fun f hf => ?_⟩
  · refine (List.pairwise_map.mp (h.children_nodup place)).imp_of_mem fun {x y} hx hy hne f hfx hfy => ?_
    exact hne (((hg x hx).2 f hfx).unique ((hg y hy).2 f hfy) (h.child_name hx).2 (h.child_name hy).2)
  · obtain ⟨x, hx, hfx⟩ := List.mem_flatMap.mp hf
    exact ⟨x.1, (h.child_name hx).2, (hg x hx).2 f hfx⟩

/-- A walk from a path leads through names of the directory, and comes upon nothing twice. -/
theorem filesBelow_nodup (h : t.Proper) (fuel : Nat) (above : List Place) (place : Place)
    (path : FilePath) :
    (t.filesBelow follow fuel above place path).Nodup ∧
      ∀ f ∈ t.filesBelow follow fuel above place path,
        ∃ name, '/' ∉ name.toList ∧ path.Through name f := by
  induction fuel generalizing above place path with
  | zero => exact ⟨.nil, by simp [filesBelow]⟩
  | succ fuel ih =>
    rw [filesBelow]
    refine h.flatMap_once place fun x hx => ?_
    obtain ⟨hne, hslash⟩ := h.child_name hx
    have hnone : OnceThrough path x.1 [] := ⟨.nil, by simp⟩
    have hfile : OnceThrough path x.1 [path.join ⟨x.1⟩] := by
      refine ⟨List.nodup_singleton _, fun f hf => ?_⟩
      rw [List.mem_singleton.mp hf]
      exact through_join hslash
    have hbelow : ∀ above place,
        OnceThrough path x.1 (t.filesBelow follow fuel above place (path.join ⟨x.1⟩)) := by
      intro above place
      obtain ⟨hnodup, hall⟩ := ih above place (path.join ⟨x.1⟩)
      refine ⟨hnodup, fun f hf => ?_⟩
      obtain ⟨name, -, hthrough⟩ := hall f hf
      exact .of_below hslash hne hthrough
    obtain ⟨name, node⟩ := x
    cases node with
    | file c => exact hfile
    | directory => exact hbelow _ _
    | link target =>
      simp only
      split
      · exact hnone
      · split
        · exact hnone
        · split
          · exact hfile
          · split
            · exact hnone
            · exact hbelow _ _
          · exact hnone

/-- No audio file is found twice. -/
theorem audioFiles_nodup (h : t.Proper) (root : FilePath) : (t.audioFiles root follow).Nodup := by
  unfold audioFiles
  split
  next place _ => exact (h.filesBelow_nodup _ [] place root).1.filter _
  · exact .nil

end Proper
end FileTree
end MusicImport
