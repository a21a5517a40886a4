import Mathlib.Data.List.Induction
import BoundFields.Proofs.Keyed
import BoundFields.Proofs.Outcome
import BoundFields.Proofs.Text.Pieces
import BoundFields.Vault.Directory

/-!
# Directories as trees

Every file and folder of a directory has a name and stands in a folder, and its path is short enough
to be opened (`Directory.IsTree`). Whatever is written, and whatever the file system makes of it, a
directory stays a tree, so that all directories that come from files by their paths are trees
(`isTree_ofList`). In a tree, writing to a file that is there is putting a text into that file, as
far as the file system does it, and nothing else (`write_of_mem`).
-/

set_option autoImplicit false

namespace BoundFields

namespace Directory

/-! ## Paths -/

/-- What a file or folder can be called. -/
structure IsName (name : String) : Prop where
  nonempty : name ≠ ""
  current : name ≠ "."
  around : name ≠ ".."
  slash : '/' ∉ name.toList
  nul : '\u0000' ∉ name.toList
  fits : name.utf8ByteSize ≤ longestName

theorem IsName.isIdle {name : String} (h : IsName name) : isIdle name = false := by
  unfold Directory.isIdle
  simp only [h.nonempty, h.current, decide_false, Bool.or_self]

/-- How many bytes the names take up, with a slash behind each. -/
def width : List String → Nat
  | [] => 0
  | name :: more => name.utf8ByteSize + 1 + width more

@[simp] theorem width_nil : width [] = 0 := rfl

@[simp] theorem width_cons (name : String) (path : List String) :
    width (name :: path) = name.utf8ByteSize + 1 + width path := rfl

@[simp] theorem width_append (path path' : List String) :
    width (path ++ path') = width path + width path' := by
  induction path with
  | nil => exact (Nat.zero_add _).symm
  | cons name more ih => simp only [List.cons_append, width_cons, ih, Nat.add_assoc]

theorem width_dropLast_le (path : List String) : width path.dropLast ≤ width path := by
  rcases List.eq_nil_or_concat path with rfl | ⟨front, name, rfl⟩
  · exact Nat.le_refl _
  · rw [List.concat_eq_append, List.dropLast_concat, width_append]
    exact Nat.le_add_right _ _

theorem utf8ByteSize_join (path : List String) :
    (String.intercalate "/" path).utf8ByteSize = width path - 1 := by
  induction path with
  | nil => rfl
  | cons name more ih =>
    cases more with
    | nil =>
      rw [String.intercalate_singleton, width_cons, width_nil]
      rfl
    | cons next more =>
      rw [String.intercalate_cons_cons, String.utf8ByteSize_append, String.utf8ByteSize_append, ih]
      have hslash : "/".utf8ByteSize = 1 := rfl
      simp only [width_cons]
      omega

/-- Names are found again in the path that they make. -/
theorem pieces_join {path : List String} (hpath : path ≠ [])
    (hslash : ∀ name ∈ path, '/' ∉ name.toList) : pieces (String.intercalate "/" path) = path := by
  unfold pieces
  rw [Text.splitOn_intercalate rfl hpath hslash, List.map_map]
  apply List.map_id''
  intro name
  exact String.ofList_toList

/-- No piece of a path has a slash in it. -/
theorem not_mem_of_mem_pieces {path piece : String} (h : piece ∈ pieces path) :
    '/' ∉ piece.toList := by
  obtain ⟨cs, hcs, rfl⟩ := List.mem_map.1 h
  rw [String.toList_ofList]
  exact Text.not_mem_of_mem_splitOn hcs

/-! ## Trees -/

/-- The way to a folder: some steps out of the directory, and then names. -/
def IsWay (here : List String) : Prop :=
  ∃ out names, here = List.replicate out ".." ++ names ∧ ∀ name ∈ names, IsName name

/-- Every node has one name in one folder, and can be reached by its path. -/
structure IsTree (d : Directory) : Prop where
  unique : d.nodes.IsUnique
  placed : ∀ path node, (path, node) ∈ d.nodes.entries → ∃ here name,
    path = here ++ [name] ∧ IsWay here ∧ IsName name ∧ d.node? here = some .folder
  fits : ∀ path node, (path, node) ∈ d.nodes.entries →
    d.lead + (String.intercalate "/" path).utf8ByteSize ≤ longestPath

theorem isWay_of_all {here : List String} (h : here.all (· = "..") = true) : IsWay here := by
  refine ⟨here.length, [], ?_, ?_⟩
  · rw [List.append_nil]
    apply List.eq_replicate_of_mem
    intro name hname
    exact of_decide_eq_true (List.all_eq_true.1 h name hname)
  · intro name hname
    cases hname

theorem isWay_append {here : List String} (h : IsWay here) {name : String} (hname : IsName name) :
    IsWay (here ++ [name]) := by
  obtain ⟨out, names, rfl, hnames⟩ := h
  refine ⟨out, names ++ [name], List.append_assoc _ _ _, ?_⟩
  intro other hother
  rcases List.mem_append.1 hother with hold | hnew
  · exact hnames other hold
  · rw [List.mem_singleton.1 hnew]
    exact hname

/-- A path that ends in a name does not just lead out of the directory. -/
theorem all_append_name {here : List String} {name : String} (hname : IsName name) :
    (here ++ [name]).all (· = "..") = false := by
  rw [List.all_append, List.all_cons, decide_eq_false hname.around, Bool.false_and, Bool.and_false]

theorem node?_append_name (d : Directory) (here : List String) {name : String}
    (hname : IsName name) : d.node? (here ++ [name]) = d.nodes.get? (here ++ [name]) := by
  unfold node?
  rw [all_append_name hname, if_neg Bool.false_ne_true]

/-- What a node is called under leads to it. -/
theorem IsTree.node?_of_mem {d : Directory} (h : d.IsTree) {path : List String} {node : Node}
    (hmem : (path, node) ∈ d.nodes.entries) : d.node? path = some node := by
  obtain ⟨here, name, rfl, -, hname, -⟩ := h.placed path node hmem
  rw [node?_append_name d here hname]
  exact Keyed.get?_of_mem h.unique hmem

theorem mem_of_node? {d : Directory} {here : List String} {name : String} {node : Node}
    (hname : IsName name) (h : d.node? (here ++ [name]) = some node) :
    (here ++ [name], node) ∈ d.nodes.entries := by
  rw [node?_append_name d here hname] at h
  exact Keyed.mem_of_get? h

theorem IsTree.isWay_of_node? {d : Directory} (h : d.IsTree) {here : List String} {node : Node}
    (hnode : d.node? here = some node) : IsWay here := by
  unfold node? at hnode
  split at hnode
  · next hall => exact isWay_of_all hall
  · obtain ⟨outer, name, rfl, hway, hname, -⟩ := h.placed here node (Keyed.mem_of_get? hnode)
    exact isWay_append hway hname

theorem isTree_empty (lead : Nat) : ({ lead } : Directory).IsTree :=
  ⟨List.nodup_nil, fun _ _ h => (List.not_mem_nil h).elim, fun _ _ h => (List.not_mem_nil h).elim⟩

/-! ## Putting something into a folder -/

theorem node?_put (d : Directory) (here : List String) {name : String} (hname : IsName name)
    (node : Node) (other : List String) :
    (d.put (here ++ [name]) node).node? other =
      if here ++ [name] = other then some node else d.node? other := by
  unfold node? put
  by_cases hall : other.all (· = "..") = true
  · have hne : here ++ [name] ≠ other := by
      rintro rfl
      rw [all_append_name hname] at hall
      cases hall
    rw [if_pos hall, if_neg hne, if_pos hall]
  · rw [if_neg hall, Keyed.get?_put, if_neg hall]

/-- Every node is the one that was put there, or was there before. -/
theorem mem_put {d : Directory} (h : d.nodes.IsUnique) {place path : List String}
    {node other : Node} (hmem : (path, other) ∈ (d.put place node).nodes.entries) :
    path = place ∧ other = node ∨ path ≠ place ∧ (path, other) ∈ d.nodes.entries := by
  have hget := Keyed.get?_of_mem (Keyed.isUnique_put h place node) hmem
  rw [Keyed.get?_put] at hget
  split at hget
  · next heq => exact .inl ⟨heq.symm, (Option.some.inj hget).symm⟩
  · next hne => exact .inr ⟨Ne.symm hne, Keyed.mem_of_get? hget⟩

/-- A tree stays one when something is put into one of its folders, unless a file takes the place of
a folder. -/
theorem isTree_put {d : Directory} (h : d.IsTree) {here : List String} {name : String} {node : Node}
    (hhere : d.node? here = some .folder) (hname : IsName name)
    (hfits : d.lead + (String.intercalate "/" (here ++ [name])).utf8ByteSize ≤ longestPath)
    (hkeep : d.node? (here ++ [name]) = some .folder → node = .folder) :
    (d.put (here ++ [name]) node).IsTree := by
  have hfolder : ∀ outer, d.node? outer = some .folder →
      (d.put (here ++ [name]) node).node? outer = some .folder := by
    intro outer houter
    rw [node?_put d here hname]
    split
    · next heq =>
      rw [hkeep (heq ▸ houter)]
    · exact houter
  refine ⟨Keyed.isUnique_put h.unique _ _, ?_, ?_⟩
  · intro path other hmem
    rcases mem_put h.unique hmem with ⟨rfl, -⟩ | ⟨-, hold⟩
    · exact ⟨here, name, rfl, h.isWay_of_node? hhere, hname, hfolder here hhere⟩
    · obtain ⟨outer, last, hpath, hway, hlast, houter⟩ := h.placed path other hold
      exact ⟨outer, last, hpath, hway, hlast, hfolder outer houter⟩
  · intro path other hmem
    rcases mem_put h.unique hmem with ⟨rfl, -⟩ | ⟨-, hold⟩
    · exact hfits
    · exact h.fits path other hold

/-- A piece leads nowhere, out of a folder, or to a name. -/
theorem step_cases {here place : List String} {piece : String} (hslash : '/' ∉ piece.toList)
    (hnul : '\u0000' ∉ piece.toList) (h : step here piece = .ok place) :
    place = here ∨ place = around here ∨ place = here ++ [piece] ∧ IsName piece := by
  unfold step at h
  split at h
  · cases h
    exact .inl rfl
  · next hidle =>
    split at h
    · cases h
      exact .inr (.inl rfl)
    · next haround =>
      split at h
      · cases h
      · next hlong =>
        cases h
        simp only [isIdle, Bool.or_eq_true, decide_eq_true_eq, not_or] at hidle
        exact .inr (.inr ⟨rfl, hidle.1, hidle.2, haround, hslash, hnul, Nat.le_of_not_lt hlong⟩)

theorem width_step {here place : List String} {piece : String} (h : step here piece = .ok place) :
    width place ≤ width here + (piece.utf8ByteSize + 1) := by
  unfold step at h
  split at h
  · cases h
    exact Nat.le_add_right _ _
  · split at h
    · next haround =>
      cases h
      rw [haround]
      unfold around
      have hpoints : "..".utf8ByteSize = 2 := rfl
      split
      · rw [width_cons]
        omega
      · have hdrop := width_dropLast_le here
        omega
    · split at h
      · cases h
      · cases h
        exact Nat.le_of_eq (width_append here [piece])

/-- The way out of a folder leads to a folder. -/
theorem IsTree.node?_around {d : Directory} (h : d.IsTree) {here : List String}
    (hhere : d.node? here = some .folder) : d.node? (around here) = some .folder := by
  unfold around
  split
  · next hall =>
    unfold node?
    rw [List.all_cons, hall]
    rfl
  · next hall =>
    unfold node? at hhere
    rw [if_neg hall] at hhere
    obtain ⟨outer, name, rfl, -, -, houter⟩ := h.placed here _ (Keyed.mem_of_get? hhere)
    rw [List.dropLast_concat]
    exact houter

/-- Entering leads to a folder, by a path that is no longer than the pieces. -/
theorem node?_enter {d : Directory} {here pieces place : List String}
    (hhere : d.node? here = some .folder) (h : d.enter here pieces = .ok place) :
    d.node? place = some .folder ∧ width place ≤ width here + width pieces := by
  induction pieces generalizing here with
  | nil =>
    cases h
    exact ⟨hhere, Nat.le_add_right _ _⟩
  | cons piece more ih =>
    obtain ⟨next, hstep, h⟩ := Outcome.bind_eq_ok_iff.1 h
    have hwidth := width_step hstep
    split at h
    · next hnext =>
      obtain ⟨hplace, hmore⟩ := ih hnext h
      refine ⟨hplace, ?_⟩
      rw [width_cons]
      omega
    · cases h
    · cases h

theorem checkPath_eq_ok_iff {d : Directory} {pieces : List String} :
    d.checkPath pieces = .ok () ↔ (∀ piece ∈ pieces, '\u0000' ∉ piece.toList) ∧
      d.lead + (String.intercalate "/" pieces).utf8ByteSize ≤ longestPath := by
  have hnul : pieces.any (·.toList.contains '\u0000') = false ↔
      ∀ piece ∈ pieces, '\u0000' ∉ piece.toList := by
    simp only [List.any_eq_false, List.contains_iff_mem]
  unfold checkPath
  by_cases hany : pieces.any (·.toList.contains '\u0000') = true
  · rw [if_pos hany, ← hnul, hany]
    simp only [reduceCtorEq, false_and]
  · rw [if_neg hany, ← hnul, Bool.eq_false_iff.2 hany]
    by_cases hlong : longestPath < d.lead + (String.intercalate "/" pieces).utf8ByteSize
    · rw [if_pos hlong]
      simp only [reduceCtorEq, Nat.not_le.2 hlong, and_false]
    · rw [if_neg hlong]
      simp only [Nat.le_of_not_lt hlong, and_self]

/-- The last step starts from a folder; it leads nowhere, or it is one of the pieces, and the path
is no longer than they are. -/
theorem lastStep_cases {d : Directory} {pieces here : List String} {last : String}
    (h : d.lastStep pieces = .ok (here, last)) :
    d.checkPath pieces = .ok () ∧ d.node? here = some .folder ∧
      (last = "." ∨ last ∈ pieces ∧ width (here ++ [last]) ≤ width pieces) := by
  unfold lastStep at h
  obtain ⟨_, hcheck, h⟩ := Outcome.bind_eq_ok_iff.1 h
  refine ⟨hcheck, ?_⟩
  split at h
  · cases h
    exact ⟨rfl, .inl rfl⟩
  · next piece init hpieces =>
    obtain ⟨place, henter, hpure⟩ := Outcome.bind_eq_ok_iff.1 h
    cases hpure
    have hroot : d.node? [] = some .folder := rfl
    obtain ⟨hplace, hwidth⟩ := node?_enter hroot henter
    refine ⟨hplace, .inr ?_⟩
    -- Some slashes may have stood behind the piece.
    have hsplit := congrArg List.reverse
      (List.takeWhile_append_dropWhile (p := (· = "")) (l := pieces.reverse))
    rw [hpieces, List.reverse_append, List.reverse_cons, List.reverse_reverse] at hsplit
    rw [← hsplit]
    refine ⟨by simp, ?_⟩
    simp only [width_append, width_nil] at hwidth ⊢
    omega

/-- A path leads to a folder that is there, or to a name in one. -/
theorem place_cases {d : Directory} (h : d.IsTree) {pieces here place : List String} {last : String}
    (hslash : ∀ piece ∈ pieces, '/' ∉ piece.toList)
    (hlast : d.lastStep pieces = .ok (here, last)) (hstep : step here last = .ok place) :
    d.node? place = some .folder ∨ ∃ name, place = here ++ [name] ∧ IsName name ∧
      d.node? here = some .folder ∧
      d.lead + (String.intercalate "/" (here ++ [name])).utf8ByteSize ≤ longestPath := by
  obtain ⟨hcheck, hhere, hpiece⟩ := lastStep_cases hlast
  obtain ⟨hnul, hfits⟩ := checkPath_eq_ok_iff.1 hcheck
  rcases hpiece with rfl | ⟨hmem, hwidth⟩
  · cases hstep
    exact .inl hhere
  · rcases step_cases (hslash last hmem) (hnul last hmem) hstep with rfl | rfl | ⟨rfl, hname⟩
    · exact .inl hhere
    · exact .inl (h.node?_around hhere)
    · refine .inr ⟨last, rfl, hname, hhere, ?_⟩
      rw [utf8ByteSize_join] at hfits ⊢
      omega

/-! ## Making folders and files -/

theorem isTree_makeFolder {d d' : Directory} (h : d.IsTree) {pieces : List String} {device : Device}
    (hslash : ∀ piece ∈ pieces, '/' ∉ piece.toList) (hmake : d.makeFolder pieces device = .ok d') :
    d'.IsTree := by
  unfold makeFolder locate at hmake
  obtain ⟨place, hlocate, hmake⟩ := Outcome.bind_eq_ok_iff.1 hmake
  obtain ⟨⟨here, last⟩, hlast, hstep⟩ := Outcome.bind_eq_ok_iff.1 hlocate
  split at hmake
  · cases hmake
  · next hnew =>
    split at hmake
    · cases hmake
    · cases hmake
      rcases place_cases h hslash hlast hstep with hfolder | ⟨name, rfl, hname, hhere, hfits⟩
      · rw [hfolder] at hnew
        exact absurd rfl hnew
      · exact isTree_put h hhere hname hfits fun _ => rfl

theorem isTree_makeFolders {d : Directory} (h : d.IsTree) {paths : List (List String)}
    (hslash : ∀ path ∈ paths, ∀ piece ∈ path, '/' ∉ piece.toList) (device : Device) :
    (d.makeFolders paths device).2.IsTree := by
  induction paths generalizing d with
  | nil => exact h
  | cons path outer ih =>
    have hpath := hslash path List.mem_cons_self
    have houter := ih h fun other hother => hslash other (List.mem_cons_of_mem path hother)
    unfold makeFolders
    split
    · next hmake => exact isTree_makeFolder h hpath hmake
    · split
      · next hrest =>
        rw [hrest] at houter
        exact houter
      · next hrest =>
        rw [hrest] at houter
        split
        · next hmake => exact isTree_makeFolder houter hpath hmake
        · exact houter
    · exact h

/-- A tree stays one when a file is put where a path leads to one. -/
theorem isTree_put_filePlace {d : Directory} (h : d.IsTree) {pieces place : List String}
    (hslash : ∀ piece ∈ pieces, '/' ∉ piece.toList) (hplace : d.filePlace pieces = .ok place)
    (content : String) : (d.put place (.file content)).IsTree := by
  unfold filePlace at hplace
  obtain ⟨⟨here, last⟩, hlast, hplace⟩ := Outcome.bind_eq_ok_iff.1 hplace
  dsimp only at hplace
  split at hplace
  · cases hplace
  · obtain ⟨place, hstep, hplace⟩ := Outcome.bind_eq_ok_iff.1 hplace
    split at hplace
    · cases hplace
    · next hfile =>
      cases hplace
      rcases place_cases h hslash hlast hstep with hfolder | ⟨name, rfl, hname, hhere, hfits⟩
      · exact absurd hfolder hfile
      · exact isTree_put h hhere hname hfits fun hfolder => absurd hfolder hfile

/-- A file has the text, or is as it was, or has what came of the text. -/
theorem fill_cases (d : Directory) (place : List String) (content : String) (device : Device) :
    (device.writing place content = .done ∧
        d.fill place content device = (.ok (), d.put place (.file content))) ∨
      (∃ problem, device.writing place content = .refused problem ∧
        d.fill place content device = (.error problem, d)) ∨
      ∃ problem kept, device.writing place content = .stopped problem kept ∧
        d.fill place content device = (.error problem, d.put place (.file kept)) := by
  unfold fill
  cases device.writing place content with
  | done => exact .inl ⟨rfl, rfl⟩
  | refused problem => exact .inr (.inl ⟨problem, rfl, rfl⟩)
  | stopped problem kept => exact .inr (.inr ⟨problem, kept, rfl, rfl⟩)

/-- The pieces of the folders on a path are pieces of the path. -/
theorem mem_of_mem_stations {pieces path : List String} {piece : String}
    (hpath : path ∈ stations pieces) (hpiece : piece ∈ path) : piece ∈ pieces := by
  unfold stations at hpath
  obtain ⟨hmem, -⟩ := List.mem_filter.1 hpath
  obtain ⟨n, -, rfl⟩ := List.mem_map.1 (List.mem_reverse.1 hmem)
  exact List.mem_of_mem_take hpiece

theorem isTree_write {d : Directory} (h : d.IsTree) (path content : String) (device : Device) :
    (d.write path content device).2.IsTree := by
  have hslash : ∀ piece ∈ pieces path, '/' ∉ piece.toList := fun _ => not_mem_of_mem_pieces
  have houter : (d.makeFolders (stations (pieces path)).tail device).2.IsTree := by
    refine isTree_makeFolders h ?_ device
    intro way hway piece hpiece
    exact hslash piece (mem_of_mem_stations (List.mem_of_mem_tail hway) hpiece)
  unfold write
  split
  · next hmake =>
    rw [hmake] at houter
    exact houter
  · next hmake =>
    rw [hmake] at houter
    split
    · exact houter
    · next place hplace =>
      have hput := isTree_put_filePlace houter hslash hplace
      rcases fill_cases _ place content device with
        ⟨-, hdone⟩ | ⟨problem, -, hrefused⟩ | ⟨problem, kept, -, hstopped⟩
      · rw [hdone]
        exact hput content
      · rw [hrefused]
        exact houter
      · rw [hstopped]
        exact hput kept

/-- A directory that comes from files by their paths is a tree. -/
theorem isTree_ofList (lead : Nat) (files : List (String × String)) :
    (ofList lead files).IsTree := by
  apply List.foldlRecOn (motive := IsTree) files _ (isTree_empty lead)
  intro d hd file _
  obtain ⟨path, content⟩ := file
  simp only
  split
  · refine isTree_makeFolders hd ?_ {}
    intro way hway piece hpiece
    exact not_mem_of_mem_pieces (mem_of_mem_stations hway hpiece)
  · exact isTree_write hd path content {}

/-! ## Overwriting a file -/

section Names

variable {d : Directory} {here names : List String} {name : String}

theorem step_name (here : List String) (hname : IsName name) :
    step here name = .ok (here ++ [name]) := by
  unfold step
  rw [hname.isIdle, if_neg Bool.false_ne_true, if_neg hname.around,
    if_neg (Nat.not_lt.2 hname.fits)]

/-- What a node stands in is a folder, and so is what that stands in. -/
theorem IsTree.node?_front (h : d.IsTree) {node : Node} (hnames : ∀ name ∈ names, IsName name)
    (hne : names ≠ []) (hnode : d.node? (here ++ names) = some node) :
    d.node? here = some .folder := by
  induction names using List.reverseRecOn generalizing node with
  | nil => exact absurd rfl hne
  | append_singleton front name ih =>
    have hname := hnames name (by simp)
    rw [← List.append_assoc] at hnode
    obtain ⟨outer, last, hpath, -, -, houter⟩ := h.placed _ _ (mem_of_node? hname hnode)
    obtain ⟨rfl, -⟩ := List.append_inj' hpath rfl
    rcases List.eq_nil_or_concat front with rfl | ⟨_, _, hfront⟩
    · rw [List.append_nil] at houter
      exact houter
    · apply ih ?_ ?_ houter
      · intro other hother
        exact hnames other (List.mem_append_left _ hother)
      · rw [hfront, List.concat_eq_append]
        exact List.append_ne_nil_of_right_ne_nil _ (List.cons_ne_nil _ _)

theorem enter_names (h : d.IsTree) (hnames : ∀ name ∈ names, IsName name)
    (hnode : d.node? (here ++ names) = some .folder) :
    d.enter here names = .ok (here ++ names) := by
  induction names generalizing here with
  | nil =>
    rw [List.append_nil]
    rfl
  | cons name more ih =>
    have hmore : ∀ other ∈ more, IsName other := fun other hother =>
      hnames other (List.mem_cons_of_mem name hother)
    rw [List.append_cons] at hnode ⊢
    have hnext : d.node? (here ++ [name]) = some .folder := by
      rcases List.eq_nil_or_concat more with rfl | ⟨_, _, hconcat⟩
      · rw [List.append_nil] at hnode
        exact hnode
      · apply h.node?_front hmore _ hnode
        rw [hconcat, List.concat_eq_append]
        exact List.append_ne_nil_of_right_ne_nil _ (List.cons_ne_nil _ _)
    unfold enter
    rw [step_name here (hnames name List.mem_cons_self)]
    refine Outcome.bind_eq_ok_iff.2 ⟨_, rfl, ?_⟩
    rw [hnext]
    exact ih hmore hnode

/-- A path of names is followed to its last name. -/
theorem lastStep_names (h : d.IsTree) (hnames : ∀ other ∈ here ++ [name], IsName other)
    (hhere : d.node? here = some .folder)
    (hfits : d.lead + (String.intercalate "/" (here ++ [name])).utf8ByteSize ≤ longestPath) :
    d.lastStep (here ++ [name]) = .ok (here, name) := by
  have hname := hnames name (by simp)
  have hcheck : d.checkPath (here ++ [name]) = .ok () :=
    checkPath_eq_ok_iff.2 ⟨fun other hother => (hnames other hother).nul, hfits⟩
  have henter : d.enter [] here = .ok here := by
    have hway : d.node? ([] ++ here) = some .folder := hhere
    exact enter_names h (fun other hother => hnames other (List.mem_append_left _ hother)) hway
  unfold lastStep
  refine Outcome.bind_eq_ok_iff.2 ⟨(), hcheck, ?_⟩
  rw [List.reverse_concat, List.dropWhile_cons_of_neg (by simpa using hname.nonempty)]
  refine Outcome.bind_eq_ok_iff.2 ⟨here, ?_, rfl⟩
  rw [List.reverse_reverse]
  exact henter

/-- The folders on a path of one more name are the same and what that name leads to. -/
theorem stations_concat (here : List String) (hname : IsName name) :
    stations (here ++ [name]) = (here ++ [name]) :: stations here := by
  have htake : ∀ n ∈ List.range here.length, (here ++ [name]).take (n + 1) = here.take (n + 1) := by
    intro n hn
    exact List.take_append_of_le_length (List.mem_range.1 hn)
  unfold stations
  simp only [List.length_append, List.length_singleton, List.range_succ, List.map_append,
    List.map_cons, List.map_nil, List.reverse_append, List.reverse_cons, List.reverse_nil,
    List.nil_append, List.singleton_append]
  rw [List.map_congr_left htake, List.take_of_length_le (by simp)]
  rw [List.filter_cons_of_pos]
  simp [hname.isIdle]

/-- The folders on the way to a folder that is there are there too, so that none is made. -/
theorem makeFolders_stations (h : d.IsTree) (hnames : ∀ name ∈ here, IsName name)
    (hhere : d.node? here = some .folder) (device : Device) :
    d.makeFolders (stations here) device = (.ok (), d) := by
  rcases List.eq_nil_or_concat here with rfl | ⟨outer, name, hconcat⟩
  · rfl
  · rw [List.concat_eq_append] at hconcat
    subst hconcat
    have hname := hnames name (by simp)
    have hmem := mem_of_node? hname hhere
    have houter : d.node? outer = some .folder := by
      apply h.node?_front _ (List.cons_ne_nil name []) hhere
      intro other hother
      exact hnames other (List.mem_append_right _ hother)
    have hlocate : d.locate (outer ++ [name]) = .ok (outer ++ [name]) := by
      refine Outcome.bind_eq_ok_iff.2 ⟨_, lastStep_names h hnames houter (h.fits _ _ hmem), ?_⟩
      exact step_name outer hname
    have hmake : d.makeFolder (outer ++ [name]) device = .error .alreadyExists := by
      unfold makeFolder
      rw [hlocate]
      simp only [bind, Except.bind, hhere, Option.isSome_some, if_true]
      rfl
    have hfolder : d.isFolder (outer ++ [name]) = true := by
      unfold isFolder
      rw [hlocate]
      exact decide_eq_true hhere
    rw [stations_concat outer hname]
    unfold makeFolders
    rw [hmake]
    simp only [hfolder, if_true]

/-- Writing to a file that is there does nothing but put a text into it. -/
theorem write_of_mem (h : d.IsTree) {path : List String} {old : String}
    (hmem : (path, .file old) ∈ d.nodes.entries) (hnames : ∀ name ∈ path, IsName name)
    (content : String) (device : Device) :
    d.write (String.intercalate "/" path) content device = d.fill path content device := by
  obtain ⟨here, name, rfl, -, hname, hhere⟩ := h.placed path _ hmem
  have hpieces := pieces_join (by simp) fun other hother => (hnames other hother).slash
  have houter : d.makeFolders (stations (here ++ [name])).tail device = (.ok (), d) := by
    rw [stations_concat here hname]
    refine makeFolders_stations h ?_ hhere device
    intro other hother
    exact hnames other (List.mem_append_left _ hother)
  have hslash : endsInSlash (here ++ [name]) = false := by
    unfold endsInSlash
    rw [List.getLastD_concat]
    exact decide_eq_false hname.nonempty
  have hplace : d.filePlace (here ++ [name]) = .ok (here ++ [name]) := by
    unfold filePlace
    rw [lastStep_names h hnames hhere (h.fits _ _ hmem), hslash]
    simp only [bind, Except.bind, step_name here hname, h.node?_of_mem hmem]
    rfl
  unfold write
  rw [hpieces, houter]
  simp only [hplace]

end Names

end Directory

end BoundFields
