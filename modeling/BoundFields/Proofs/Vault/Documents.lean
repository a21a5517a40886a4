import BoundFields.Proofs.Target.Reference
import BoundFields.Proofs.Vault.Tree
import BoundFields.Vault.Basic

/-!
# Documents and their files

A vault goes by the references of its documents: a document is looked for, and written back, at the
path that is its reference. The reference of a file is its path without blanks at the ends and with
slashes for backslashes, so that the two are the same exactly for a path that starts with no blank
and has no backslash in it (`ofText_join_iff`). Where all paths of documents are of that kind, and
nowhere else, every document is a file of its own, and its file is the one that is rewritten
(`Vault.isOneToOne_iff`).
-/

set_option autoImplicit false

namespace BoundFields

open Text

namespace Vault

open Directory

/-! ## Paths of documents -/

/-- The ways to documents are not hidden, and so they lead through the directory. -/
theorem isName_of_isDocument {d : Directory} (h : d.IsTree) {path : List String} {node : Node}
    (hmem : (path, node) ∈ d.nodes.entries) (hdocument : isDocument path = true) :
    ∀ name ∈ path, IsName name := by
  obtain ⟨here, name, rfl, ⟨out, names, rfl, hnames⟩, hname, -⟩ := h.placed path node hmem
  obtain ⟨hvisible, -⟩ := Bool.and_eq_true_iff.1 hdocument
  rw [List.dropLast_concat, Bool.not_eq_true', List.any_eq_false] at hvisible
  have hout : out = 0 := by
    rcases Nat.eq_zero_or_pos out with hzero | hpos
    · exact hzero
    · have hmem : ".." ∈ List.replicate out ".." ++ names :=
        List.mem_append_left _ (List.mem_replicate.2 ⟨Nat.pos_iff_ne_zero.1 hpos, rfl⟩)
      exact absurd (by decide) (hvisible ".." hmem)
  intro other hother
  rw [hout, List.replicate_zero, List.nil_append] at hother
  rcases List.mem_append.1 hother with hold | hnew
  · exact hnames other hold
  · rw [List.mem_singleton.1 hnew]
    exact hname

theorem ne_nil_of_isDocument {path : List String} (hdocument : isDocument path = true) :
    path ≠ [] := by
  rintro rfl
  exact absurd hdocument (by decide)

/-- A path ends like its last name. -/
theorem exists_join_concat (here : List String) (name : String) :
    ∃ front, (String.intercalate "/" (here ++ [name])).toList = front ++ name.toList := by
  induction here with
  | nil => exact ⟨[], by rw [List.nil_append, String.intercalate_singleton, List.nil_append]⟩
  | cons first more ih =>
    obtain ⟨front, hfront⟩ := ih
    cases hmore : more ++ [name] with
    | nil => exact absurd hmore (by simp)
    | cons next rest =>
      rw [List.cons_append, hmore, String.intercalate_cons_cons, ← hmore, String.toList_append,
        hfront]
      exact ⟨(first ++ "/").toList ++ front, (List.append_assoc _ _ _).symm⟩

theorem exists_stem_of_isDocumentName {name : String} (h : isDocumentName name = true) :
    ∃ stem, name.toList = stem ++ FileRef.ending := by
  unfold isDocumentName at h
  split at h
  · next stem hstem => exact ⟨stem, dropSuffix?_eq_some_iff.1 hstem⟩
  · cases h

/-- The path of a document ends in a letter. -/
theorem isBlank_last_join {path : List String} (hdocument : isDocument path = true)
    {front : List Char} {c : Char} (h : (String.intercalate "/" path).toList = front ++ [c]) :
    isBlank c = false := by
  obtain ⟨-, hname⟩ := Bool.and_eq_true_iff.1 hdocument
  rcases List.eq_nil_or_concat path with rfl | ⟨here, name, hpath⟩
  · exact absurd hname (by decide)
  · rw [List.concat_eq_append] at hpath
    subst hpath
    rw [List.getLastD_concat] at hname
    obtain ⟨stem, hstem⟩ := exists_stem_of_isDocumentName hname
    obtain ⟨outer, houter⟩ := exists_join_concat here name
    have hending : FileRef.ending = ['.', 'm'] ++ ['d'] := rfl
    rw [houter, hstem, hending, ← List.append_assoc, ← List.append_assoc] at h
    obtain ⟨-, hlast⟩ := List.append_inj' h rfl
    obtain ⟨rfl, -⟩ := List.cons.inj hlast
    rfl

/-! ## References -/

/-- A path of names does not start with a slash or with a step to the current folder. -/
theorem head_join {path : List String} (hne : path ≠ []) (hnames : ∀ name ∈ path, IsName name) :
    (∀ rest, (String.intercalate "/" path).toList ≠ '/' :: rest) ∧
      ∀ rest, (String.intercalate "/" path).toList ≠ '.' :: '/' :: rest := by
  have hpieces := pieces_join hne fun name hname => (hnames name hname).slash
  unfold pieces at hpieces
  constructor
  · intro rest hrest
    rw [hrest, List.splitOn_cons_eq_if_modifyHead, if_pos (beq_self_eq_true _)] at hpieces
    have hmem : "" ∈ path := by
      rw [← hpieces]
      exact List.mem_map_of_mem List.mem_cons_self
    exact (hnames "" hmem).nonempty rfl
  · intro rest hrest
    rw [hrest, List.splitOn_cons_eq_if_modifyHead, if_neg (by decide),
      List.splitOn_cons_eq_if_modifyHead, if_pos (beq_self_eq_true _)] at hpieces
    have hmem : "." ∈ path := by
      rw [← hpieces]
      exact List.mem_map_of_mem List.mem_cons_self
    exact (hnames "." hmem).current rfl

theorem ofText_join_iff {d : Directory} (h : d.IsTree) {path : List String} {node : Node}
    (hmem : (path, node) ∈ d.nodes.entries) (hdocument : isDocument path = true) :
    FileRef.ofText (String.intercalate "/" path) = ⟨String.intercalate "/" path⟩ ↔
      IsPlainPath (String.intercalate "/" path) := by
  obtain ⟨hslash, hcurrent⟩ :=
    head_join (ne_nil_of_isDocument hdocument) (isName_of_isDocument h hmem hdocument)
  exact FileRef.ofText_eq_iff (fun _ _ => isBlank_last_join hdocument) hslash hcurrent

/-! ## Which file a document was read from -/

theorem documentOf?_eq_some_iff {path : List String} {node : Node} {file : FileRef}
    {content : String} : documentOf? (path, node) = some (file, content) ↔
      node = .file content ∧ isDocument path = true ∧
        FileRef.ofText (String.intercalate "/" path) = file := by
  cases node with
  | folder =>
    unfold documentOf?
    simp only [reduceCtorEq, false_and]
  | file text =>
    unfold documentOf?
    by_cases hdocument : isDocument path = true
    · simp only [hdocument, if_true, Option.some.injEq, Prod.mk.injEq, Node.file.injEq, true_and,
        and_comm]
    · simp only [hdocument, Bool.false_eq_true, if_false, reduceCtorEq, false_and, and_false]

/-- The path and the text of the file that the document with a reference was read from: of several
files with the reference, the last one. -/
def source? (disk : Directory) (file : FileRef) : Option (List String × String) :=
  (disk.nodes.entries.filterMap fun node =>
    ((documentOf? node).filter (·.1 = file)).map fun document => (node.1, document.2)).getLast?

theorem mem_of_source? {disk : Directory} {file : FileRef} {path : List String} {content : String}
    (h : source? disk file = some (path, content)) :
    (path, .file content) ∈ disk.nodes.entries ∧ isDocument path = true ∧
      FileRef.ofText (String.intercalate "/" path) = file := by
  obtain ⟨⟨place, node⟩, hmem, hfound⟩ := List.mem_filterMap.1 (List.mem_of_getLast? h)
  obtain ⟨⟨found, text⟩, hfilter, hpair⟩ := Option.map_eq_some_iff.1 hfound
  obtain ⟨rfl, rfl⟩ := Prod.mk.inj hpair
  obtain ⟨hdocument, hfile⟩ := Option.filter_eq_some_iff.1 hfilter
  obtain ⟨rfl, hpath, href⟩ := documentOf?_eq_some_iff.1 hdocument
  exact ⟨hmem, hpath, href.trans (of_decide_eq_true hfile)⟩

/-- A reference that a file has was read from some file. -/
theorem exists_source? {disk : Directory} {path : List String} {content : String}
    (hmem : (path, .file content) ∈ disk.nodes.entries) (hdocument : isDocument path = true) :
    ∃ source, source? disk (FileRef.ofText (String.intercalate "/" path)) = some source := by
  have hfound : documentOf? (path, .file content) =
      some (FileRef.ofText (String.intercalate "/" path), content) :=
    documentOf?_eq_some_iff.2 ⟨rfl, hdocument, rfl⟩
  refine ⟨_, List.getLast?_eq_some_getLast (List.ne_nil_of_mem (a := (path, content)) ?_)⟩
  refine List.mem_filterMap.2 ⟨_, hmem, ?_⟩
  simp only [hfound, Option.filter_some, decide_true, if_true, Option.map_some]

/-- Every document is a file of its own, at the path where it is looked for, and that file is
rewritten when it is written back. -/
structure IsOneToOne (root : String) (disk : Directory) : Prop where
  readAt : ∀ file path content, source? disk file = some (path, content) →
    root ++ "/" ++ String.intercalate "/" path = (ofDirectory root disk).pathOf file
  held : ∀ path content, (path, .file content) ∈ disk.nodes.entries → isDocument path = true →
    source? disk (FileRef.ofText (String.intercalate "/" path)) = some (path, content)
  rewrites : ∀ file path old, source? disk file = some (path, old) → ∀ store content,
    (ofDirectory root disk).updated store file = .ok content →
      ((ofDirectory root disk).persist store file).1 = .ok () ∧
        ((ofDirectory root disk).persist store file).2.disk = disk.put path (.file content)

section Plain

variable {disk : Directory}

/-- The paths of all documents are plain. -/
def HasPlainPaths (disk : Directory) : Prop :=
  ∀ path content, (path, .file content) ∈ disk.nodes.entries → isDocument path = true →
    IsPlainPath (String.intercalate "/" path)

/-- The path of every document is its reference as it stands. -/
def HasOwnPaths (disk : Directory) : Prop :=
  ∀ path content, (path, .file content) ∈ disk.nodes.entries → isDocument path = true →
    FileRef.ofText (String.intercalate "/" path) = ⟨String.intercalate "/" path⟩

theorem hasOwnPaths_iff (h : disk.IsTree) : HasOwnPaths disk ↔ HasPlainPaths disk := by
  constructor
  · intro hown path content hmem hdocument
    exact (ofText_join_iff h hmem hdocument).1 (hown path content hmem hdocument)
  · intro hplain path content hmem hdocument
    exact (ofText_join_iff h hmem hdocument).2 (hplain path content hmem hdocument)

/-- A document with a plain path was read from the path that is its reference. -/
theorem join_of_source? (h : disk.IsTree) (hplain : HasPlainPaths disk) {file : FileRef}
    {path : List String} {content : String} (hsource : source? disk file = some (path, content)) :
    String.intercalate "/" path = file.path := by
  obtain ⟨hmem, hdocument, hfile⟩ := mem_of_source? hsource
  rw [(hasOwnPaths_iff h).2 hplain path content hmem hdocument] at hfile
  rw [← hfile]

/-- A document with a plain path is the file with its reference. -/
theorem source?_of_mem (h : disk.IsTree) (hplain : HasPlainPaths disk) {path : List String}
    {content : String} (hmem : (path, .file content) ∈ disk.nodes.entries)
    (hdocument : isDocument path = true) :
    source? disk (FileRef.ofText (String.intercalate "/" path)) = some (path, content) := by
  obtain ⟨⟨other, text⟩, hsource⟩ := exists_source? hmem hdocument
  obtain ⟨hother, hothers, -⟩ := mem_of_source? hsource
  have hjoin := join_of_source? h hplain hsource
  rw [(hasOwnPaths_iff h).2 hplain path content hmem hdocument] at hjoin
  have hpath : other = path := by
    rw [← pieces_join (ne_nil_of_isDocument hothers)
        fun name hname => (isName_of_isDocument h hother hothers name hname).slash,
      ← pieces_join (ne_nil_of_isDocument hdocument)
        fun name hname => (isName_of_isDocument h hmem hdocument name hname).slash, hjoin]
  subst hpath
  have hsame := (Keyed.get?_of_mem h.unique hother).symm.trans (Keyed.get?_of_mem h.unique hmem)
  rw [hsource, Node.file.inj (Option.some.inj hsame)]

/-- Writing back a document with a plain path puts the text into the file that it was read from, as
far as the file system does it. -/
theorem persist_of_source? (h : disk.IsTree) (hplain : HasPlainPaths disk) {file : FileRef}
    {path : List String} {old : String} (hsource : source? disk file = some (path, old))
    {root : String} {store : Store} {content : String}
    (hupdated : (ofDirectory root disk).updated store file = .ok content) (device : Device) :
    ((ofDirectory root disk).persist store file device).1 =
        (disk.fill path content device).1.mapError .badFile ∧
      ((ofDirectory root disk).persist store file device).2.disk =
        (disk.fill path content device).2 := by
  obtain ⟨hmem, hdocument, -⟩ := mem_of_source? hsource
  have hwrite := write_of_mem h hmem (isName_of_isDocument h hmem hdocument) content device
  rw [join_of_source? h hplain hsource] at hwrite
  have hdisk : (ofDirectory root disk).disk = disk := rfl
  unfold persist
  simp only [hupdated, hdisk, hwrite]
  rcases disk.fill path content device with ⟨outcome, after⟩
  cases outcome with
  | ok _ => exact ⟨rfl, rfl⟩
  | error problem => exact ⟨rfl, rfl⟩

end Plain

/-- Every document of a directory is a file of its own, exactly if all their paths are plain. -/
theorem isOneToOne_iff (root : String) {disk : Directory} (h : disk.IsTree) :
    IsOneToOne root disk ↔ HasPlainPaths disk := by
  constructor
  · intro hone path content hmem hdocument
    have hsource := hone.held path content hmem hdocument
    have hread := hone.readAt _ path content hsource
    have hchars := congrArg String.toList hread
    unfold pathOf ofDirectory at hchars
    simp only [String.toList_append, List.append_cancel_left_eq, String.toList_inj] at hchars
    exact (ofText_join_iff h hmem hdocument).1 (congrArg FileRef.mk hchars.symm)
  · intro hplain
    refine ⟨?_, ?_, ?_⟩
    · intro file path content hsource
      rw [join_of_source? h hplain hsource]
      rfl
    · intro path content hmem hdocument
      exact source?_of_mem h hplain hmem hdocument
    · intro file path old hsource store content hupdated
      exact persist_of_source? h hplain hsource hupdated {}

/-- A vault with one document, in a folder. -/
def notesDisk : Directory := ofList 0 [("notes/a.md", "Body\n")]

theorem isOneToOne_notesDisk : notesDisk.IsTree ∧ IsOneToOne "vault" notesDisk := by
  refine ⟨isTree_ofList 0 _, (isOneToOne_iff "vault" (isTree_ofList 0 _)).2 ?_⟩
  have hentries : notesDisk.nodes.entries =
      [(["notes"], .folder), (["notes", "a.md"], .file "Body\n")] := by
    decide +kernel
  intro path content hmem _
  have hone := hentries.symm ▸ hmem
  simp only [List.mem_cons, Prod.mk.injEq, reduceCtorEq, and_false, List.not_mem_nil, or_false,
    false_or] at hone
  rw [hone.1]
  decide +kernel

/-- A vault with one document, whose name starts with a blank. -/
def blankDisk : Directory := ofList 0 [(" a.md", "---\nx: 1\n---\nBody\n")]

/-- The document goes by a reference that leads to another file. -/
theorem exists_not_isOneToOne :
    ¬ ∀ (root : String) (disk : Directory), disk.IsTree → IsOneToOne root disk := by
  intro hall
  have hone := hall "vault" blankDisk (isTree_ofList 0 _)
  have hread := hone.readAt ⟨"a.md"⟩ [" a.md"] "---\nx: 1\n---\nBody\n" (by decide +kernel)
  exact absurd hread (by decide +kernel)

end Vault

end BoundFields
