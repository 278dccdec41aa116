import Mathlib.Data.List.Induction
import MusicImport.Proofs.Files.Parents

/-! The entries of a directory. A name that is joined to a path is its last component, and all paths that are
made so from one path have the same parent, as has a path with another file name. -/
namespace MusicImport

/-- A name of an entry: it is no step to another directory, and no longer path. -/
structure IsName (name : String) : Prop where
  nonempty : name ≠ ""
  not_here : name ≠ "."
  not_up : name ≠ ".."
  no_slash : '/' ∉ name.toList

/-- A name is a component of its own, also at the start of a path. -/
theorem IsName.ofPiece? {name : String} (h : IsName name) (first : Bool) :
    FilePath.Component.ofPiece? first name = some (.name name) := by
  rw [FilePath.Component.ofPiece?, if_neg h.nonempty, if_neg h.not_here, if_neg h.not_up]

namespace FilePath

variable {p q r dir parent : FilePath} {name other : String} {names : List String}

theorem components_of_pieces {first : String} {rest : List String} (h : p.pieces = first :: rest) :
    p.components = (if p.isAbsolute then [.root] else (Component.ofPiece? true first).toList) ++
      rest.filterMap (Component.ofPiece? false) := by
  unfold components
  rw [h]

theorem filterMap_names (h : ∀ n ∈ names, IsName n) :
    names.filterMap (Component.ofPiece? false) = names.map .name := by
  rw [← List.filterMap_eq_map]
  exact List.filterMap_congr fun n hn => (h n hn).ofPiece? false

theorem pieces_between (p q : FilePath) :
    (FilePath.mk (p.text ++ "/" ++ q.text)).pieces = p.pieces ++ q.pieces := by
  have hsep : "/".toList = ['/'] := rfl
  simp only [FilePath.pieces, Text.split, String.toList_append, hsep, List.append_assoc,
    List.singleton_append, Text.splitChars_append, List.map_append]

/-- A path that ends in a separator has an empty piece behind it. -/
theorem exists_directory (h : p.text.toList.getLast? = some '/') :
    ∃ dir : FilePath, p.text = dir.text ++ "/" ∧ p.pieces = dir.pieces ++ [""] := by
  obtain ⟨before, hbefore⟩ := List.getLast?_eq_some_iff.mp h
  have htext : p.text = String.ofList before ++ "/" := by
    rw [← String.toList_inj, hbefore, String.toList_append, String.toList_ofList]
    rfl
  refine ⟨⟨String.ofList before⟩, htext, ?_⟩
  have hpieces := pieces_between ⟨String.ofList before⟩ ⟨""⟩
  rw [String.append_empty, ← htext] at hpieces
  exact hpieces

/-- A path whose pieces are names. Its text has no separator at either end. -/
structure MadeOf (names : List String) (p : FilePath) : Prop where
  pieces : p.pieces = names
  proper : ∀ n ∈ names, IsName n

namespace MadeOf

theorem text_ne (h : p.MadeOf names) : p.text ≠ "" := by
  intro htext
  have hpieces : p.pieces = [""] := by
    rw [FilePath.pieces, htext]
    rfl
  rw [h.pieces] at hpieces
  exact (h.proper "" (hpieces ▸ .head _)).nonempty rfl

theorem not_absolute (h : p.MadeOf names) : p.isAbsolute = false := by
  rw [Bool.eq_false_iff]
  intro habsolute
  obtain ⟨hfirst, -⟩ := isAbsolute_iff.mp habsolute
  rw [h.pieces] at hfirst
  exact (h.proper "" (List.mem_of_head? hfirst)).nonempty rfl

theorem getLast?_ne (h : p.MadeOf names) : p.text.toList.getLast? ≠ some '/' := by
  intro hlast
  obtain ⟨dir, -, hpieces⟩ := exists_directory hlast
  rw [h.pieces] at hpieces
  exact (h.proper "" (hpieces ▸ List.mem_append_right _ (.head _))).nonempty rfl

theorem ne_nil (h : p.MadeOf names) : names ≠ [] := h.pieces ▸ p.pieces_ne_nil

theorem components (h : p.MadeOf names) : p.components = names.map .name := by
  cases hnames : names with
  | nil => exact absurd hnames h.ne_nil
  | cons first rest =>
    subst hnames
    have hfirst := (h.proper first (.head _)).ofPiece? true
    rw [components_of_pieces h.pieces, h.not_absolute, hfirst,
      filterMap_names fun n hn => h.proper n (.tail _ hn)]
    rfl

end MadeOf

/-- A single name is a path. -/
theorem madeOf_name (h : IsName name) : (FilePath.mk name).MadeOf [name] := by
  refine ⟨?_, fun n hn => List.mem_singleton.mp hn ▸ h⟩
  rw [FilePath.pieces, Text.split, Text.splitChars_of_not_mem h.no_slash]
  simp

theorem isAbsolute_append (hne : p.text ≠ "") (text : String) :
    (FilePath.mk (p.text ++ text)).isAbsolute = p.isAbsolute := by
  have hchars : p.text.toList ≠ [] := fun hnil => hne (String.toList_inj.mp hnil)
  unfold isAbsolute
  rw [String.toList_append, List.head?_append_of_ne_nil _ hchars]

theorem join_empty (h : q.isAbsolute = false) : (FilePath.mk "").join q = q := by
  unfold join
  simp [h]

/-- The pieces of a path of names come behind those of the path that it is joined to. Where that ends in a
separator, its last piece is empty and gives way to them. -/
theorem pieces_join (hne : p.text ≠ "") :
    ∃ first rest, (p.pieces = first :: rest ∨ p.pieces = first :: (rest ++ [""])) ∧
      ∀ {q names}, MadeOf names q →
        (p.join q).pieces = first :: (rest ++ names) ∧ (p.join q).isAbsolute = p.isAbsolute := by
  have joined {q : FilePath} {names : List String} (h : q.MadeOf names) : p.join q =
      if p.text.toList.getLast? == some '/' then ⟨p.text ++ q.text⟩ else ⟨p.text ++ "/" ++ q.text⟩ := by
    rw [join, if_neg (by simp [h.not_absolute]), if_neg hne]
  by_cases hlast : p.text.toList.getLast? = some '/'
  · obtain ⟨dir, htext, hpieces⟩ := exists_directory hlast
    obtain ⟨first, rest, hfirst⟩ := List.exists_cons_of_ne_nil dir.pieces_ne_nil
    refine ⟨first, rest, .inr (by rw [hpieces, hfirst, List.cons_append]), fun h => ?_⟩
    rw [joined h, if_pos (by simpa using hlast)]
    refine ⟨?_, isAbsolute_append hne _⟩
    rw [htext, pieces_between, hfirst, h.pieces, List.cons_append]
  · obtain ⟨first, rest, hfirst⟩ := List.exists_cons_of_ne_nil p.pieces_ne_nil
    refine ⟨first, rest, .inl hfirst, fun h => ?_⟩
    rw [joined h, if_neg (by simpa using hlast)]
    constructor
    · rw [pieces_between, hfirst, h.pieces, List.cons_append]
    · rw [String.append_assoc]
      exact isAbsolute_append hne _

/-- To join a path of names adds its components, whatever the path before it is. -/
theorem components_join (h : q.MadeOf names) (p : FilePath) :
    (p.join q).components = p.components ++ q.components := by
  by_cases hne : p.text = ""
  · obtain ⟨text⟩ := p
    obtain rfl : text = "" := hne
    rw [join_empty h.not_absolute]
    rfl
  obtain ⟨first, rest, hp, hjoin⟩ := pieces_join hne
  obtain ⟨hpieces, habsolute⟩ := hjoin h
  have hempty : [""].filterMap (Component.ofPiece? false) = [] := rfl
  rw [components_of_pieces hpieces, habsolute, List.filterMap_append, filterMap_names h.proper, h.components,
    ← List.append_assoc]
  obtain hp | hp := hp
  · rw [components_of_pieces hp]
  · rw [components_of_pieces hp, List.filterMap_append, hempty, List.append_nil]

theorem MadeOf.join (h : p.MadeOf names) (hname : IsName name) :
    (p.join ⟨name⟩).MadeOf (names ++ [name]) := by
  have hq := madeOf_name hname
  refine ⟨?_, fun n hn => ?_⟩
  · unfold FilePath.join
    rw [if_neg (by simp [hq.not_absolute]), if_neg h.text_ne, if_neg (by simpa using h.getLast?_ne),
      pieces_between, h.pieces, hq.pieces]
  · obtain hn | hn := List.mem_append.mp hn
    · exact h.proper n hn
    · exact hq.proper n hn

theorem ofNames_concat (names : List String) (name : String) :
    ofNames (names ++ [name]) = (ofNames names).join ⟨name⟩ := by
  unfold ofNames
  rw [List.foldl_append]
  rfl

/-- Names make the path that consists of them. -/
theorem madeOf_ofNames (hne : names ≠ []) (h : ∀ n ∈ names, IsName n) : (ofNames names).MadeOf names := by
  induction names using List.reverseRecOn with
  | nil => exact absurd rfl hne
  | append_singleton before name ih =>
    have hname : IsName name := h name (by simp)
    rw [ofNames_concat]
    by_cases hbefore : before = []
    · subst hbefore
      rw [show ofNames [] = ⟨""⟩ from rfl, join_empty (madeOf_name hname).not_absolute]
      exact madeOf_name hname
    · exact (ih hbefore fun n hn => h n (List.mem_append_left _ hn)).join hname

/-- A path as the beginning of what is joined to it. -/
def opened (p : FilePath) : String :=
  if p.text = "" then ""
  else if p.text.toList.getLast? = some '/' then p.text
  else p.text ++ "/"

theorem join_eq (h : q.isAbsolute = false) (p : FilePath) : p.join q = ⟨p.opened ++ q.text⟩ := by
  unfold join opened
  rw [if_neg (by simp [h])]
  split
  · rw [String.empty_append]
  · split <;> simp_all

theorem opened_join (h : q.isAbsolute = false) (p : FilePath) : (p.join q).opened = p.opened ++ q.opened := by
  rw [join_eq h]
  by_cases hq : q.text = ""
  · unfold opened
    simp only [hq, if_true, String.append_empty]
    split
    · rfl
    · split <;> simp_all
  · have hchars : q.text.toList ≠ [] := fun hnil => hq (String.toList_inj.mp hnil)
    have hlast : (p.opened ++ q.text).toList.getLast? = q.text.toList.getLast? := by
      rw [String.toList_append, List.getLast?_append_of_ne_nil _ hchars]
    have hne : p.opened ++ q.text ≠ "" := by simp [hq]
    conv_lhs => rw [opened]
    rw [opened.eq_def q, if_neg hne, if_neg hq, hlast]
    split
    · rfl
    · rw [String.append_assoc]

/-- A relative path that is joined to a relative path can be joined later, too. -/
theorem join_join (hq : q.isAbsolute = false) (hr : r.isAbsolute = false) (p : FilePath) :
    p.join (q.join r) = (p.join q).join r := by
  have habsolute : (q.join r).isAbsolute = false := by
    by_cases hne : q.text = ""
    · obtain ⟨text⟩ := q
      obtain rfl : text = "" := hne
      rwa [join_empty hr]
    · unfold join
      rw [if_neg (by simp [hr]), if_neg hne]
      split
      · rwa [isAbsolute_append hne]
      · rwa [String.append_assoc, isAbsolute_append hne]
  rw [join_eq habsolute, join_eq hr q, join_eq hr (p.join q), opened_join hq, String.append_assoc]

/-- The component that a piece of a path stands for, if any. -/
def componentOf (absolute first : Bool) (piece : String) : List Component :=
  if first && absolute then [.root] else (Component.ofPiece? first piece).toList

/-- The components of the pieces of a path, or of those behind its first one. -/
def componentsOf (absolute first : Bool) : List String → List Component
  | [] => []
  | piece :: rest => componentOf absolute first piece ++ componentsOf absolute false rest

theorem componentsOf_rest (absolute : Bool) (pieces : List String) :
    componentsOf absolute false pieces = pieces.filterMap (Component.ofPiece? false) := by
  induction pieces with
  | nil => rfl
  | cons piece rest ih =>
    rw [componentsOf, componentOf, ih, Bool.false_and, List.filterMap_cons]
    cases Component.ofPiece? false piece <;> rfl

theorem components_eq (p : FilePath) : p.components = componentsOf p.isAbsolute true p.pieces := by
  cases hpieces : p.pieces with
  | nil => exact absurd hpieces p.pieces_ne_nil
  | cons first rest =>
    rw [components_of_pieces hpieces, componentsOf, componentOf, componentsOf_rest, Bool.true_and]

/-- A piece counts if it stands for a component. -/
theorem length_componentOf (absolute first : Bool) (piece : String) :
    (componentOf absolute first piece).length = if counts absolute first piece then 1 else 0 := by
  unfold componentOf counts
  cases first <;> cases absolute <;> cases Component.ofPiece? _ piece <;> rfl

section

variable {absolute first : Bool} {n : Nat} {pieces others : List String}

theorem componentsOf_takeComponents :
    componentsOf absolute first (takeComponents absolute n first pieces) =
      (componentsOf absolute first pieces).take n := by
  induction pieces generalizing n first with
  | nil => cases n <;> simp [takeComponents, componentsOf]
  | cons piece rest ih =>
    cases n with
    | zero => simp [takeComponents, componentsOf]
    | succ n =>
      have hlength := length_componentOf absolute first piece
      have htake : (componentOf absolute first piece).take (n + 1) = componentOf absolute first piece :=
        List.take_of_length_le (by rw [hlength]; split <;> omega)
      rw [takeComponents, componentsOf, componentsOf, ih, List.take_append, hlength, htake]
      split
      · rw [Nat.add_sub_cancel]
      · rw [Nat.sub_zero]

/-- What comes behind pieces with enough components is not taken. -/
theorem takeComponents_append (h : n ≤ (componentsOf absolute first pieces).length) :
    takeComponents absolute n first (pieces ++ others) = takeComponents absolute n first pieces := by
  induction pieces generalizing n first with
  | nil =>
    obtain rfl : n = 0 := Nat.le_zero.mp h
    cases others <;> rfl
  | cons piece rest ih =>
    cases n with
    | zero => rfl
    | succ n =>
      have hlength := length_componentOf absolute first piece
      rw [componentsOf, List.length_append, hlength] at h
      rw [List.cons_append, takeComponents, takeComponents, ih]
      split at h
      next hcounts =>
        rw [if_pos hcounts]
        omega
      next hcounts =>
        rw [if_neg hcounts]
        omega

theorem takeComponents_takeComponents :
    takeComponents absolute n first (takeComponents absolute n first pieces) =
      takeComponents absolute n first pieces := by
  induction pieces generalizing n first with
  | nil => cases n <;> rfl
  | cons piece rest ih =>
    cases n with
    | zero => rfl
    | succ n => rw [takeComponents, takeComponents, ih]

end

/-- The path of the first components of a path. -/
def leading (p : FilePath) (before : List Component) : FilePath :=
  if before = [.root] then ⟨"/"⟩
  else ⟨Text.joinWith "/" (takeComponents p.isAbsolute before.length true p.pieces)⟩

variable {before after : List Component}

/-- The parent of an entry consists of the components before its name. -/
theorem parent?_eq (h : p.components = before ++ [.name name]) : p.parent? = some (p.leading before) := by
  unfold parent? leading
  rw [h, List.reverse_append, List.reverse_singleton, List.singleton_append]
  simp only [List.length_reverse]
  split
  next hroot => rw [if_pos (by simpa using hroot)]
  next hroot => rw [if_neg (by simpa using hroot)]

/-- A path that starts from the root starts with a separator. -/
theorem isAbsolute_of_root (h : .root ∈ p.components) : p.isAbsolute := by
  have hpiece (first : Bool) (piece : String) : Component.ofPiece? first piece ≠ some .root := by
    unfold Component.ofPiece?
    split
    · simp
    · split
      · split <;> simp
      · split <;> simp
  obtain ⟨first, rest, hpieces⟩ := List.exists_cons_of_ne_nil p.pieces_ne_nil
  rw [components_of_pieces hpieces] at h
  obtain h | h := List.mem_append.mp h
  · split at h
    · assumption
    · exact absurd (Option.mem_toList.mp h) (hpiece true first)
  · obtain ⟨piece, -, hroot⟩ := List.mem_filterMap.mp h
    exact absurd hroot (hpiece false piece)

/-- More than the root of a path is made of its first pieces. -/
theorem leading_pieces (h : p.components = before ++ after) (hafter : after ≠ []) (hne : before ≠ [])
    (hroot : before ≠ [.root]) :
    (p.leading before).pieces = takeComponents p.isAbsolute before.length true p.pieces ∧
      (p.leading before).isAbsolute = p.isAbsolute := by
  have hpos := List.length_pos_iff.mpr hafter
  obtain ⟨b, hb⟩ : ∃ b, before.length = b + 1 :=
    ⟨before.length - 1, by have := List.length_pos_iff.mpr hne; omega⟩
  -- an absolute path has a component besides the root in front of what is left out
  have habsolute : p.isAbsolute → b ≠ 0 := by
    rintro habs rfl
    obtain ⟨component, rfl⟩ := List.length_eq_one_iff.mp hb
    have hhead := head?_components habs
    rw [h] at hhead
    exact hroot (by simpa using hhead)
  obtain ⟨kept, rest, htake, hpieces, -, hkept, hlast⟩ :=
    takeComponents_pieces (p := p) (b := b) (by rw [h, List.length_append]; omega) habsolute
  unfold leading
  rw [if_neg hroot, hb, htake]
  exact joinWith_of_pieces hpieces hkept hlast

theorem leading_nil (p : FilePath) : p.leading [] = ⟨""⟩ := by
  simp [leading, takeComponents, Text.joinWith]

theorem leading_root (p : FilePath) : p.leading [.root] = ⟨"/"⟩ := if_pos rfl

theorem components_leading (h : p.components = before ++ after) (hafter : after ≠ []) :
    (p.leading before).components = before := by
  by_cases hne : before = []
  · rw [hne, leading_nil]
    decide
  by_cases hroot : before = [.root]
  · rw [hroot, leading_root]
    decide
  obtain ⟨hpieces, habsolute⟩ := leading_pieces h hafter hne hroot
  rw [components_eq, hpieces, habsolute, componentsOf_takeComponents, ← components_eq, h, List.take_left]

theorem fileName?_eq_some : p.fileName? = some name ↔ ∃ before, p.components = before ++ [.name name] := by
  unfold fileName?
  constructor
  · intro h
    split at h
    next n hlast =>
      cases h
      exact List.getLast?_eq_some_iff.mp hlast
    · cases h
  · rintro ⟨before, h⟩
    simp [h]

theorem components_join_name (h : IsName name) (dir : FilePath) :
    (dir.join ⟨name⟩).components = dir.components ++ [.name name] := by
  rw [components_join (madeOf_name h), (madeOf_name h).components]
  rfl

/-- The first components of an entry are those of its directory. -/
theorem leading_join_name (h : IsName name) (hlength : before.length ≤ dir.components.length) :
    (dir.join ⟨name⟩).leading before = dir.leading before := by
  by_cases hne : dir.text = ""
  · have hnone : dir.components = [] := by
      rw [show dir = ⟨""⟩ from congrArg FilePath.mk hne]
      decide
    obtain rfl : before = [] := by simpa [hnone] using hlength
    rw [leading_nil, leading_nil]
  obtain ⟨first, rest, hdir, hjoin⟩ := pieces_join hne
  obtain ⟨hpieces, habsolute⟩ := hjoin (madeOf_name h)
  rw [components_eq] at hlength
  have hcount : before.length ≤ (componentsOf dir.isAbsolute true (first :: rest)).length := by
    obtain hdir | hdir := hdir
    · rwa [hdir] at hlength
    · rw [hdir, componentsOf, componentsOf_rest, List.filterMap_append] at hlength
      rw [componentsOf, componentsOf_rest]
      simpa [Component.ofPiece?] using hlength
  have hkept : takeComponents dir.isAbsolute before.length true (first :: rest) =
      takeComponents dir.isAbsolute before.length true dir.pieces := by
    obtain hdir | hdir := hdir
    · rw [hdir]
    · rw [hdir, ← List.cons_append, takeComponents_append hcount]
  unfold leading
  rw [hpieces, habsolute, ← List.cons_append, takeComponents_append hcount, hkept]

theorem leading_leading (h : p.components = before ++ after) (hafter : after ≠ []) :
    (p.leading before).leading before = p.leading before := by
  by_cases hne : before = []
  · rw [hne, leading_nil, leading_nil]
  by_cases hroot : before = [.root]
  · rw [hroot, leading_root, leading_root]
  obtain ⟨hpieces, habsolute⟩ := leading_pieces h hafter hne hroot
  rw [leading, if_neg hroot, hpieces, habsolute, takeComponents_takeComponents, leading, if_neg hroot]

/-- The parent of an entry does not depend on its name. -/
theorem parent?_join_name (h : IsName name) (dir : FilePath) :
    (dir.join ⟨name⟩).parent? = some (dir.leading dir.components) := by
  rw [parent?_eq (components_join_name h dir), leading_join_name h (Nat.le_refl _)]

/-- An entry with another name is an entry of the parent. -/
theorem withFileName_eq (h : p.components = before ++ [.name name]) (other : String) :
    p.withFileName other = (p.leading before).join ⟨other⟩ := by
  have hname : p.fileName?.isSome := by simp [fileName?, h]
  rw [withFileName, if_pos hname, parent?_eq h, Option.getD_some]

theorem components_withFileName (h : p.components = before ++ [.name name]) (hother : IsName other) :
    (p.withFileName other).components = before ++ [.name other] := by
  rw [withFileName_eq h, components_join_name hother, components_leading h (by simp)]

theorem components_parent (h : p.components = before ++ [.name name]) (hp : p.parent? = some parent) :
    parent.components = before := by
  obtain rfl := Option.some.inj ((parent?_eq h).symm.trans hp)
  exact components_leading h (List.cons_ne_nil _ [])

/-- Another file name does not change the parent. -/
theorem parent?_withFileName (h : p.components = before ++ [.name name]) (hother : IsName other) :
    (p.withFileName other).parent? = p.parent? := by
  rw [parent?_eq (components_withFileName h hother), parent?_eq h, withFileName_eq h]
  have hcomponents := components_leading h (List.cons_ne_nil _ [])
  rw [leading_join_name hother (by simp [hcomponents]), leading_leading h (List.cons_ne_nil _ [])]

end FilePath
end MusicImport
