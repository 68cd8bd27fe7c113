import Views.Proofs.FileSystem
import Views.Source.Directory
/-!
# Partials from the files of a directory

The partials are the files of a directory, each named by the stem of its file, and a directory may
list its files in any order. Of the files with one stem the one that is listed last counts
(`DirectorySource.find?_readPartials`). So the order makes no difference, and each file is found
with its own text, exactly as long as no two files have one stem and different texts
(`DirectorySource.givesEachFile_iff`); nothing keeps a directory from having such files.

Files are told apart by their names, and partials by their stems, which are less: `nav.hbs` and
`nav.txt` are one partial. A stem is the name up to its last dot, unless that is the first character
of the name. A file whose stem is no text is passed over, and one whose contents are no text makes
the whole listing fail, unless it is passed over. A directory and a link are passed over, whatever
they are called (`DirectorySource.canBeRead_file`).
-/

namespace Views

namespace DirectorySource

variable {fs other : FileSystem} {directory : FilePath} {entries : List (FileName × Node)}
  {found found' : Partials} {stem text : String}

/-! ## Reading some entries -/

/-- Whether an entry can be read, if it is a file that a partial may be named by. Directories and
links can always be passed over. -/
def CanBeRead (fs : FileSystem) (directory : FilePath) : FileName × Node → Prop
  | (name, .file _) => (FilePath.textOf? (FilePath.stem name)).isSome →
    ∃ text, fs.read (directory.child name) = .ok text
  | _ => True

/-- A file stands in the way of no listing if its text can be read or its stem is no text. -/
theorem canBeRead_file {name : FileName} {content : List UInt8} :
    CanBeRead fs directory (name, .file content) ↔
      ((FilePath.textOf? (FilePath.stem name)).isSome →
        ∃ text, fs.read (directory.child name) = .ok text) := Iff.rfl

/-- The text that an entry gives for the partial of a name. -/
def textFor? (fs : FileSystem) (directory : FilePath) (stem : String) :
    FileName × Node → Option String
  | (name, .file _) =>
    if FilePath.textOf? (FilePath.stem name) = some stem then
      (fs.read (directory.child name)).toOption
    else none
  | _ => none

/-- An entry gives the text of a partial where it is a file of that stem which can be read. -/
theorem textFor?_eq_some_iff {entry : FileName × Node} :
    textFor? fs directory stem entry = some text ↔ ∃ name content,
      entry = (name, .file content) ∧ FilePath.textOf? (FilePath.stem name) = some stem ∧
        fs.read (directory.child name) = .ok text := by
  obtain ⟨name, node⟩ := entry
  cases node with
  | file content =>
    unfold textFor?
    dsimp only
    split
    · rename_i hstem
      cases hread : fs.read (directory.child name) <;> simp [Except.toOption, hstem, hread]
    · rename_i hstem
      simp [hstem]
  | directory | link => simp [textFor?]

/-- A file that is read is a partial under its stem. -/
theorem readPartials_file {name : FileName} {content : List UInt8}
    (hstem : FilePath.textOf? (FilePath.stem name) = some stem)
    (hread : fs.read (directory.child name) = .ok text) (rest : List (FileName × Node)) :
    readPartials fs directory ((name, .file content) :: rest) found =
      readPartials fs directory rest (Assoc.put stem text found) := by
  rw [readPartials, hstem]
  dsimp only
  rw [hread]

/-- Reading succeeds exactly if every entry can be read. -/
theorem readPartials_ok_iff : (∃ found', readPartials fs directory entries found = .ok found') ↔
    ∀ entry ∈ entries, CanBeRead fs directory entry := by
  induction entries generalizing found with
  | nil => simp [readPartials]
  | cons entry rest ih =>
    obtain ⟨name, node⟩ := entry
    rw [List.forall_mem_cons]
    cases node with
    | file content =>
      rw [canBeRead_file]
      unfold readPartials
      cases hstem : FilePath.textOf? (FilePath.stem name) with
      | none =>
        dsimp only
        rw [ih]
        exact (and_iff_right (by simp)).symm
      | some stem =>
        dsimp only
        cases hread : fs.read (directory.child name) with
        | ok text =>
          dsimp only
          rw [ih]
          exact (and_iff_right fun _ => ⟨text, rfl⟩).symm
        | error fault => simp
    | directory | link =>
      unfold readPartials
      rw [ih]
      exact (and_iff_right trivial).symm

/-- Of the entries with one stem the one that is read last counts. -/
theorem find?_readPartials (h : readPartials fs directory entries found = .ok found')
    (stem : String) : Assoc.find? stem found' =
      (entries.reverse.findSome? (textFor? fs directory stem)).or (Assoc.find? stem found) := by
  induction entries generalizing found with
  | nil =>
    obtain rfl : found = found' := by simpa [readPartials] using h
    rfl
  | cons entry rest ih =>
    obtain ⟨name, node⟩ := entry
    rw [List.reverse_cons, List.findSome?_append, Option.or_assoc]
    -- What the entry itself gives comes before what was found already.
    have hfound : ∀ {now : Partials}, readPartials fs directory rest now = .ok found' →
        Assoc.find? stem now =
          ([(name, node)].findSome? (textFor? fs directory stem)).or (Assoc.find? stem found) →
        Assoc.find? stem found' = (rest.reverse.findSome? (textFor? fs directory stem)).or
          (([(name, node)].findSome? (textFor? fs directory stem)).or (Assoc.find? stem found)) :=
      fun hrest hnow => by rw [ih hrest, hnow]
    cases node with
    | file content =>
      unfold readPartials at h
      split at h
      · rename_i own hown
        dsimp only at h
        split at h
        · rename_i text hread
          refine hfound h ?_
          by_cases he : stem = own
          · subst he
            simp [textFor?, hown, hread, Except.toOption]
          · simp [Assoc.find?_put_of_ne he, textFor?, hown, Ne.symm he]
        · cases h
      · rename_i hown
        exact hfound h (by simp [textFor?, hown])
    | directory | link => exact hfound h rfl

/-! ## All files -/

/-- A file in the directory that the partial of a name may come from, with what is in it. -/
def HasFile (fs : FileSystem) (directory : FilePath) (stem : String) (content : List UInt8) :
    Prop :=
  ∃ entries name, fs.list directory = .ok entries ∧ (name, .file content) ∈ entries ∧
    FilePath.textOf? (FilePath.stem name) = some stem

/-- The directory can be listed, and each file in it that a partial may come from can be read. -/
def IsReadable (fs : FileSystem) (directory : FilePath) : Prop :=
  ∃ entries, fs.list directory = .ok entries ∧ ∀ entry ∈ entries, CanBeRead fs directory entry

/-- There are partials exactly if all files can be read. -/
theorem partials_ok_iff : (∃ found, (DirectorySource.mk (some directory)).partials fs = .ok found) ↔
    IsReadable fs directory := by
  unfold partials IsReadable
  dsimp only
  cases fs.list directory with
  | error fault => simp
  | ok entries => simpa using readPartials_ok_iff

/-- What the partials of a directory should be: the same in whatever order it is listed, and each
file found under its stem with its own text. -/
structure GivesEachFile (fs : FileSystem) (directory : FilePath) : Prop where
  /-- Two orders give the same partials. -/
  anyOrder : ∀ {first second found}, fs.Reorders first → fs.Reorders second →
    (DirectorySource.mk (some directory)).partials first = .ok found →
      ∃ found', (DirectorySource.mk (some directory)).partials second = .ok found' ∧
        ∀ stem, Assoc.find? stem found = Assoc.find? stem found'
  /-- If all can be read, each file is found under its stem with its own text, and nothing else. -/
  complete : IsReadable fs directory → ∀ {other}, fs.Reorders other →
    ∃ found, (DirectorySource.mk (some directory)).partials other = .ok found ∧
      ∀ stem text, Assoc.find? stem found = some text ↔
        ∃ content, HasFile fs directory stem content ∧ FilePath.textOf? content = some text

/-- A file system in another order has the same files to read from. -/
theorem isReadable_reorders (h : fs.Reorders other) (hnodup : (fs.nodes.map Prod.fst).Nodup) :
    IsReadable other directory ↔ IsReadable fs directory := by
  have hcan : CanBeRead other directory = CanBeRead fs directory := by
    funext ⟨name, node⟩
    cases node with
    | file content => simp only [CanBeRead, h.read_eq hnodup]
    | directory | link => rfl
  unfold IsReadable
  rw [hcan]
  rcases h.list_eq hnodup directory with
    ⟨fault, hfs, hother⟩ | ⟨entries, listed, hfs, hother, hperm⟩
  · simp [hfs, hother]
  · simp [hfs, hother, hperm.mem_iff]

/-- Listing a directory in another order changes no file of it. -/
theorem hasFile_reorders (h : fs.Reorders other) (hnodup : (fs.nodes.map Prod.fst).Nodup)
    {content : List UInt8} :
    HasFile other directory stem content ↔ HasFile fs directory stem content := by
  unfold HasFile
  rcases h.list_eq hnodup directory with
    ⟨fault, hfs, hother⟩ | ⟨entries, listed, hfs, hother, hperm⟩
  · simp [hfs, hother]
  · simp [hfs, hother, hperm.mem_iff]

/-- A name is bound to the text of a file that it is the stem of, and if there is such a file, it is
bound. -/
theorem find?_partials (hsound : fs.IsSound)
    (h : (DirectorySource.mk (some directory)).partials fs = .ok found) (stem : String) :
    (∀ text, Assoc.find? stem found = some text →
        ∃ content, HasFile fs directory stem content ∧ FilePath.textOf? content = some text) ∧
      ∀ content, HasFile fs directory stem content →
        ∃ text, Assoc.find? stem found = some text := by
  obtain ⟨entries, hlist, hread⟩ := partials_ok_iff.mp ⟨found, h⟩
  have hfind : Assoc.find? stem found =
      entries.reverse.findSome? (textFor? fs directory stem) := by
    unfold partials at h
    dsimp only at h
    rw [hlist] at h
    rw [find?_readPartials h stem, Assoc.find?_nil, Option.or_none]
  constructor
  · intro text htext
    rw [hfind] at htext
    obtain ⟨entry, hentry, hgives⟩ := List.exists_of_findSome?_eq_some htext
    obtain ⟨name, content, rfl, hstem, hchild⟩ := textFor?_eq_some_iff.mp hgives
    have hmem := List.mem_reverse.mp hentry
    exact ⟨content, ⟨entries, name, hlist, hmem, hstem⟩,
      FileSystem.read_child hsound hlist hmem hchild⟩
  · rintro content ⟨entries', name, hlist', hmem, hstem⟩
    obtain rfl : entries = entries' := Except.ok.inj (hlist.symm.trans hlist')
    obtain ⟨text, htext⟩ := canBeRead_file.mp (hread _ hmem) (by simp [hstem])
    rw [hfind, ← Option.isSome_iff_exists, List.findSome?_isSome_iff]
    have hgives := textFor?_eq_some_iff.mpr ⟨name, content, rfl, hstem, htext⟩
    exact ⟨_, List.mem_reverse.mpr hmem, by rw [hgives]; rfl⟩

/-- What a file holds that can be read is a text. -/
theorem textOf?_of_hasFile (hsound : fs.IsSound) (hread : IsReadable fs directory)
    {content : List UInt8} (hfile : HasFile fs directory stem content) :
    ∃ text, FilePath.textOf? content = some text := by
  obtain ⟨entries, hlist, hcan⟩ := hread
  obtain ⟨entries', name, hlist', hmem, hstem⟩ := hfile
  obtain rfl : entries = entries' := Except.ok.inj (hlist.symm.trans hlist')
  obtain ⟨text, htext⟩ := canBeRead_file.mp (hcan _ hmem) (by simp [hstem])
  exact ⟨text, FileSystem.read_child hsound hlist hmem htext⟩

/-- No two files that have one stem have different texts. -/
def StemsAreApart (fs : FileSystem) (directory : FilePath) : Prop :=
  ∀ stem content content', HasFile fs directory stem content →
    HasFile fs directory stem content' → FilePath.textOf? content = FilePath.textOf? content'

/-- If stems are apart, each file is found with its own text. -/
theorem find?_partials_iff (hsound : fs.IsSound) (hapart : StemsAreApart fs directory)
    (h : (DirectorySource.mk (some directory)).partials fs = .ok found) (stem text : String) :
    Assoc.find? stem found = some text ↔
      ∃ content, HasFile fs directory stem content ∧ FilePath.textOf? content = some text := by
  obtain ⟨hown, hsome⟩ := find?_partials hsound h stem
  constructor
  · exact hown text
  · rintro ⟨content, hfile, htext⟩
    obtain ⟨text', hfound⟩ := hsome content hfile
    obtain ⟨content', hfile', htext'⟩ := hown text' hfound
    have hsame := hapart stem content content' hfile hfile'
    rw [htext, htext'] at hsame
    rw [hfound, ← hsame]

/-- The partials of a directory do not depend on the order in which it is listed, and each file is
found under its stem with its own text, exactly if no two files that have one stem have different
texts. -/
theorem givesEachFile_iff (hsound : fs.IsSound) (directory : FilePath) :
    GivesEachFile fs directory ↔ (IsReadable fs directory → StemsAreApart fs directory) := by
  constructor
  · intro h hread stem content content' hfile hfile'
    obtain ⟨found, -, heach⟩ := h.complete hread (.refl fs)
    obtain ⟨text, htext⟩ := textOf?_of_hasFile hsound hread hfile
    obtain ⟨text', htext'⟩ := textOf?_of_hasFile hsound hread hfile'
    have hfound := (heach stem text).mpr ⟨content, hfile, htext⟩
    have hfound' := (heach stem text').mpr ⟨content', hfile', htext'⟩
    rw [htext, htext', ← hfound, ← hfound']
  · intro hapart
    have hcomplete : IsReadable fs directory → ∀ {other}, fs.Reorders other →
        ∃ found, (DirectorySource.mk (some directory)).partials other = .ok found ∧
          ∀ stem text, Assoc.find? stem found = some text ↔
            ∃ content, HasFile fs directory stem content ∧
              FilePath.textOf? content = some text := by
      intro hread other horder
      obtain ⟨found, hfound⟩ :=
        partials_ok_iff.mpr ((isReadable_reorders horder hsound.nodup).mpr hread)
      have hfile : HasFile other directory = HasFile fs directory := by
        funext stem content
        exact propext (hasFile_reorders horder hsound.nodup)
      have hother : StemsAreApart other directory := by
        unfold StemsAreApart
        rw [hfile]
        exact hapart hread
      refine ⟨found, hfound, fun stem text => ?_⟩
      rw [find?_partials_iff (hsound.reorders horder) hother hfound, hfile]
    -- Two orders give the same, since in either each name is bound to the text of its one file.
    refine ⟨fun {first second found} hfirst hsecond hfound => ?_, hcomplete⟩
    have hread : IsReadable fs directory :=
      (isReadable_reorders hfirst hsound.nodup).mp (partials_ok_iff.mp ⟨found, hfound⟩)
    obtain ⟨one, hone, heach⟩ := hcomplete hread hfirst
    obtain ⟨two, htwo, heach'⟩ := hcomplete hread hsecond
    obtain rfl : found = one := Except.ok.inj (hfound.symm.trans hone)
    refine ⟨two, htwo, fun stem => Option.ext fun text => ?_⟩
    rw [heach, heach']

/-! ## A folder of files -/

/-- The entries of a directory with some files, each a name with what is in the file. -/
def fileEntries (files : List (String × String)) : List (FileName × Node) :=
  files.map fun (name, text) => (name.toUTF8.toList, .file text.toUTF8.toList)

/-- A file system with a directory of files. -/
def folder (files : List (String × String)) : FileSystem :=
  let place : Location := ["work", "p"].map fun name => name.toUTF8.toList
  { nodes := (place, .directory) ::
      (fileEntries files).map fun (name, node) => (place ++ [name], node) }

/-- The place of the directory of a folder. -/
def folderPlace : Location := ["work", "p"].map fun name => name.toUTF8.toList

/-- The folder of a small file system lies at the name `p` under its base. -/
theorem folderPlace_eq : folderPlace = (folder []).base ++ ["p".toUTF8.toList] := rfl

/-- And there is a directory at that place. -/
theorem node?_folderPlace (files : List (String × String)) :
    (folder files).node? folderPlace = some .directory := by
  have hapart : ¬ folderPlace.isPrefixOf (folder []).base = true := by decide +kernel
  exact (if_neg hapart).trans (if_pos rfl)

/-- The directory of a folder is found by its path, with or without a slash at the end. -/
theorem locate_folder (files : List (String × String)) {path : FilePath}
    (hpath : path = .ofString "p" ∨ path = .ofString "p/") :
    (folder files).locate path = .ok folderPlace := by
  have hplace := node?_folderPlace files
  have hbase : (folder files).node? (folder []).base = some .directory := if_pos (by simp [folder])
  have hname : FileSystem.IsEntryName "p".toUTF8.toList := by decide +kernel
  have henter : ∀ rest, (folder files).walk FileSystem.linkLimit (folder []).base
      ("p".toUTF8.toList :: rest) =
        (folder files).walk FileSystem.linkLimit folderPlace rest := fun rest => by
    rw [FileSystem.walk_enter hbase _ (not_or.mpr ⟨hname.ne_nil, hname.ne_here⟩) hname.ne_up
      (Nat.not_lt.mpr hname.length_le), ← folderPlace_eq]
    rw [← folderPlace_eq, hplace]
    exact fun target h => by cases h
  have htaken : FileSystem.IsTaken path := by
    rcases hpath with rfl | rfl <;> decide +kernel
  have hstart : path.isAbsolute = false := by
    rcases hpath with rfl | rfl <;> decide +kernel
  rw [htaken.locate_eq, hstart]
  rcases hpath with rfl | rfl
  · have hnames : (FilePath.ofString "p").names = ["p".toUTF8.toList] := by decide +kernel
    rw [hnames]
    exact (henter []).trans (by rw [FileSystem.walk])
  · have hnames : (FilePath.ofString "p/").names = ["p".toUTF8.toList, []] := by decide +kernel
    rw [hnames]
    exact (henter [[]]).trans (FileSystem.walk_nil_name hplace _)

/-- What is listed in it is its files. -/
theorem list_folder (files : List (String × String)) {path : FilePath}
    (hpath : path = .ofString "p" ∨ path = .ofString "p/") :
    (folder files).list path = .ok (fileEntries files) := by
  unfold FileSystem.list
  rw [locate_folder files hpath]
  simp only [bind, Except.bind]
  rw [node?_folderPlace]
  refine congrArg Except.ok ?_
  show (List.filterMap _ ((folderPlace, Node.directory) :: _)) = _
  rw [List.filterMap_cons, List.filterMap_map]
  simp [folderPlace]

/-- The text of the stem of a name. -/
def stemText (name : String) : String :=
  (FilePath.textOf? (FilePath.stem name.toUTF8.toList)).getD ""

/-- The files of a folder that can be read are its partials, the later ones in place of the earlier
ones of their stems. -/
theorem partials_folder {files : List (String × String)} (hsound : (folder files).IsSound)
    {path : FilePath} (hpath : path = .ofString "p" ∨ path = .ofString "p/")
    (hfiles : ∀ p ∈ files, FileSystem.IsTaken (path.child p.1.toUTF8.toList) ∧
      FilePath.textOf? p.2.toUTF8.toList = some p.2)
    (hstems : ∀ p ∈ files,
      FilePath.textOf? (FilePath.stem p.1.toUTF8.toList) = some (stemText p.1)) :
    (DirectorySource.mk (some path)).partials (folder files) =
      .ok (files.foldl (fun found p => Assoc.put (stemText p.1) p.2 found) []) := by
  have hlist := list_folder files hpath
  unfold partials
  dsimp only
  rw [hlist]
  dsimp only
  have hread : ∀ p ∈ files, (folder files).read (path.child p.1.toUTF8.toList) = .ok p.2 :=
    fun p hp => FileSystem.read_listed hsound hlist (List.mem_map_of_mem hp) (hfiles p hp).1
      (hfiles p hp).2
  generalize folder files = fs at hread ⊢
  clear hlist hsound hfiles
  generalize ([] : Partials) = found
  induction files generalizing found with
  | nil => rfl
  | cons p rest ih =>
    rw [List.forall_mem_cons] at hstems hread
    rw [List.foldl_cons, ← ih hstems.2 hread.2]
    exact readPartials_file hstems.1 hread.1 _

/-- A hidden file, one with two dots in its name and one without any. -/
def plainFiles : List (String × String) :=
  [(".nav", "hidden"), ("a.b.hbs", "two dots"), ("a", "no dot")]

/-- All of them are found. -/
theorem givesEachFile_plainFiles :
    (folder plainFiles).IsSound ∧
      (DirectorySource.mk (some (.ofString "p/"))).partials (folder plainFiles) =
        .ok [(".nav", "hidden"), ("a.b", "two dots"), ("a", "no dot")] ∧
      GivesEachFile (folder plainFiles) (.ofString "p/") := by
  have hsound : (folder plainFiles).IsSound := by decide +kernel
  have hpath : FilePath.ofString "p/" = .ofString "p" ∨ FilePath.ofString "p/" = .ofString "p/" :=
    .inr rfl
  have hpartials := partials_folder hsound hpath (by decide +kernel) (by decide +kernel)
  refine ⟨hsound, hpartials.trans (by decide +kernel), (givesEachFile_iff hsound _).mpr fun _ => ?_⟩
  rintro stem content content' ⟨entries, name, hlist, hmem, hstem⟩
    ⟨entries', name', hlist', hmem', hstem'⟩
  have hentries := list_folder plainFiles hpath
  obtain rfl := Except.ok.inj (hentries.symm.trans hlist)
  obtain rfl := Except.ok.inj (hentries.symm.trans hlist')
  have hapart : ∀ one ∈ fileEntries plainFiles, ∀ two ∈ fileEntries plainFiles,
      FilePath.textOf? (FilePath.stem one.1) = FilePath.textOf? (FilePath.stem two.1) →
        one = two := by decide +kernel
  cases hapart _ hmem _ hmem' (hstem.trans hstem'.symm)
  rfl

/-- Of two files with one stem the one that is listed first is lost, and which one that is depends
on the order. -/
theorem not_givesEachFile_twins :
    (DirectorySource.mk (some (.ofString "p"))).partials
        (folder [("nav.hbs", "<nav>"), ("nav.txt", "notes")]) = .ok [("nav", "notes")] ∧
      (DirectorySource.mk (some (.ofString "p"))).partials
        (folder [("nav.txt", "notes"), ("nav.hbs", "<nav>")]) = .ok [("nav", "<nav>")] ∧
      ¬ GivesEachFile (folder [("nav.hbs", "<nav>"), ("nav.txt", "notes")]) (.ofString "p") := by
  have hfirst : (DirectorySource.mk (some (.ofString "p"))).partials
      (folder [("nav.hbs", "<nav>"), ("nav.txt", "notes")]) = .ok [("nav", "notes")] :=
    (partials_folder (by decide +kernel) (.inl rfl) (by decide +kernel) (by decide +kernel)).trans
      (by decide +kernel)
  have hsecond : (DirectorySource.mk (some (.ofString "p"))).partials
      (folder [("nav.txt", "notes"), ("nav.hbs", "<nav>")]) = .ok [("nav", "<nav>")] :=
    (partials_folder (by decide +kernel) (.inl rfl) (by decide +kernel) (by decide +kernel)).trans
      (by decide +kernel)
  refine ⟨hfirst, hsecond, fun h => ?_⟩
  have horder : (folder [("nav.hbs", "<nav>"), ("nav.txt", "notes")]).Reorders
      (folder [("nav.txt", "notes"), ("nav.hbs", "<nav>")]) :=
    ⟨rfl, .cons _ (.swap _ _ _)⟩
  obtain ⟨found, hfound, hsame⟩ := h.anyOrder (.refl _) horder hfirst
  obtain rfl := Except.ok.inj (hsecond.symm.trans hfound)
  exact absurd (hsame "nav") (by decide)

end DirectorySource
end Views
