import Views.FileSystem.Basic
import Views.Proofs.Assoc
/-!
# Files by path and files by place

What is listed in a directory is what stands at places in it; what is read is found by walking along
a path. The two agree in a file system in which every name can be walked along
(`FileSystem.IsSound`): a file that is listed in a directory is the one that the path of the
directory with the name of the file leads to (`FileSystem.read_child`). A file system that holds the
same in another order leads everywhere to the same, and lists the same in another order
(`FileSystem.Reorders`).

Soundness is what every file system guarantees: a place is taken once, a name can be walked along,
and what is on the way to the starting place is nothing but directories. Beside that a path has to
be one that the file system takes, which is decided by its bytes alone (`FileSystem.IsTaken`). Links
are part of the model because a path may lead through them; among the entries of a directory they
are passed over.
-/

namespace Views

namespace FilePath

variable {p : FilePath} {name : FileName}

theorem namesOf_ne_nil (bytes : List UInt8) : namesOf bytes ≠ [] := by
  cases bytes with
  | nil => simp [namesOf]
  | cons b bs =>
    unfold namesOf
    split
    · simp
    · split <;> simp

/-- A slash ends a name. -/
theorem namesOf_append_slash (bytes rest : List UInt8) :
    namesOf (bytes ++ slash :: rest) = namesOf bytes ++ namesOf rest := by
  induction bytes with
  | nil => simp [namesOf]
  | cons b bs ih =>
    obtain ⟨first, others, hnames⟩ := List.exists_cons_of_ne_nil (namesOf_ne_nil bs)
    by_cases hb : b = slash
    · simp [namesOf, hb, ih]
    · simp [namesOf, hb, ih, hnames]

/-- Without a slash there is one name. -/
theorem namesOf_of_slash_notMem (h : slash ∉ name) : namesOf name = [name] := by
  induction name with
  | nil => rfl
  | cons b bs ih =>
    rw [List.mem_cons, not_or] at h
    simp [namesOf, Ne.symm h.1, ih h.2]

/-- The name of a child comes last in its path, after the names of the directory, of which an empty
one at the end is left out. -/
theorem names_child (hp : p.bytes ≠ []) (hname : slash ∉ name) :
    ∃ init, (p.names = init ∨ p.names = init ++ [[]]) ∧ (p.child name).names = init ++ [name] := by
  unfold child names
  rw [if_neg hp]
  by_cases hlast : p.bytes.getLast? = some slash
  · obtain ⟨init, hinit⟩ := List.getLast?_eq_some_iff.mp hlast
    refine ⟨namesOf init, .inr ?_, ?_⟩
    · rw [hinit, namesOf_append_slash, namesOf]
    · rw [if_pos hlast, hinit, List.append_assoc, List.singleton_append, namesOf_append_slash,
        namesOf_of_slash_notMem hname]
  · refine ⟨namesOf p.bytes, .inl rfl, ?_⟩
    rw [if_neg hlast, namesOf_append_slash, namesOf_of_slash_notMem hname]

/-- A path with one more name starts where it started. -/
theorem isAbsolute_child (hp : p.bytes ≠ []) (name : FileName) :
    (p.child name).isAbsolute = p.isAbsolute := by
  obtain ⟨b, bs, hbytes⟩ := List.exists_cons_of_ne_nil hp
  unfold child isAbsolute
  rw [if_neg hp]
  split <;> simp [hbytes]

end FilePath

namespace FileSystem

variable {fs other : FileSystem} {links : Nat} {place here : Location} {path : FilePath}
  {name : FileName} {names : List FileName} {content : List UInt8}

/-! ## Sound file systems -/

/-- What an entry of a directory may be named. -/
structure IsEntryName (name : FileName) : Prop where
  ne_nil : name ≠ []
  ne_here : name ≠ [FilePath.dot]
  ne_up : name ≠ [FilePath.dot, FilePath.dot]
  slash_notMem : FilePath.slash ∉ name
  length_le : name.length ≤ nameLimit

instance (name : FileName) : Decidable (IsEntryName name) :=
  decidable_of_iff (name ≠ [] ∧ name ≠ [FilePath.dot] ∧ name ≠ [FilePath.dot, FilePath.dot] ∧
      FilePath.slash ∉ name ∧ name.length ≤ nameLimit)
    ⟨fun ⟨h₁, h₂, h₃, h₄, h₅⟩ => ⟨h₁, h₂, h₃, h₄, h₅⟩,
      fun ⟨h₁, h₂, h₃, h₄, h₅⟩ => ⟨h₁, h₂, h₃, h₄, h₅⟩⟩

/-- A file system in which each place is taken once, under a name that can be walked along, and what
is on the way to the starting place is nothing but a directory. -/
structure IsSound (fs : FileSystem) : Prop where
  nodup : (fs.nodes.map Prod.fst).Nodup
  names : ∀ p ∈ fs.nodes, ∀ name ∈ p.1.getLast?, IsEntryName name
  base : ∀ p ∈ fs.nodes, ¬ p.1 <+: fs.base

instance (fs : FileSystem) : Decidable fs.IsSound :=
  decidable_of_iff ((fs.nodes.map Prod.fst).Nodup ∧
      (∀ p ∈ fs.nodes, ∀ name ∈ p.1.getLast?, IsEntryName name) ∧
      ∀ p ∈ fs.nodes, ¬ p.1 <+: fs.base)
    ⟨fun ⟨h₁, h₂, h₃⟩ => ⟨h₁, h₂, h₃⟩, fun ⟨h₁, h₂, h₃⟩ => ⟨h₁, h₂, h₃⟩⟩

/-- What is listed at a place is what is there. -/
theorem IsSound.node?_of_mem (h : fs.IsSound) {node : Node} (hmem : (place, node) ∈ fs.nodes) :
    fs.node? place = some node := by
  have hbase : place.isPrefixOf fs.base = false :=
    Bool.eq_false_iff.mpr fun hprefix => h.base _ hmem (List.isPrefixOf_iff_prefix.mp hprefix)
  rw [node?, hbase, Assoc.find?_of_mem_nodup hmem h.nodup]
  rfl

/-- What is listed in a directory stands there, under a name that can be walked along. -/
theorem mem_list {entries : List (FileName × Node)} (h : fs.list path = .ok entries) :
    ∃ here, fs.locate path = .ok here ∧ fs.node? here = some .directory ∧
      ∀ name node, (name, node) ∈ entries ↔ (here ++ [name], node) ∈ fs.nodes := by
  unfold list at h
  cases hlocate : fs.locate path with
  | error fault =>
    rw [hlocate] at h
    cases h
  | ok here =>
    rw [hlocate] at h
    simp only [bind, Except.bind] at h
    split at h
    · rename_i hnode
      cases h
      refine ⟨here, rfl, hnode, fun name node => ?_⟩
      rw [List.mem_filterMap]
      constructor
      · rintro ⟨⟨place, node'⟩, hmem, hentry⟩
        dsimp only at hentry
        split at hentry
        · rename_i last hlast
          split at hentry
          · rename_i hplace
            cases hentry
            have hsplit := List.dropLast_append_getLast? _ hlast
            rw [hplace] at hsplit
            exact hsplit ▸ hmem
          · cases hentry
        · cases hentry
      · intro hmem
        exact ⟨_, hmem, by simp⟩
    · cases h
    · cases h

/-! ## Walking -/

section steps

variable {rest : List FileName} (h : fs.node? place = some .directory) (links : Nat)

include h

/-- An empty name and a single dot stay where they are. -/
theorem walk_skip (hskip : name = [] ∨ name = [FilePath.dot]) :
    fs.walk links place (name :: rest) = fs.walk links place rest := by
  rw [walk, h]
  exact if_pos hskip

/-- Two dots lead one level up. -/
theorem walk_up : fs.walk links place ([FilePath.dot, FilePath.dot] :: rest) =
    fs.walk links place.dropLast rest := by
  rw [walk, h]
  rfl

variable (hskip : ¬ (name = [] ∨ name = [FilePath.dot]))
  (hup : name ≠ [FilePath.dot, FilePath.dot])

include hskip hup

/-- A name that is too long leads nowhere. -/
theorem walk_tooLong (hlong : nameLimit < name.length) :
    fs.walk links place (name :: rest) = .error .tooLong := by
  rw [walk, h]
  dsimp only
  rw [if_neg hskip, if_neg hup, if_pos hlong]

variable (hshort : ¬ nameLimit < name.length)

include hshort

/-- A link leads nowhere once too many were followed. -/
theorem walk_tooManyLinks {target : FilePath}
    (hlink : fs.node? (place ++ [name]) = some (.link target)) :
    fs.walk 0 place (name :: rest) = .error .tooManyLinks := by
  rw [walk, h]
  dsimp only
  rw [if_neg hskip, if_neg hup, if_neg hshort, hlink]

/-- A link is followed from the root or from where it stands. -/
theorem walk_link {target : FilePath}
    (hlink : fs.node? (place ++ [name]) = some (.link target)) :
    fs.walk (links + 1) place (name :: rest) =
      fs.walk links (if target.isAbsolute then [] else place) (target.names ++ rest) := by
  rw [walk, h]
  dsimp only
  rw [if_neg hskip, if_neg hup, if_neg hshort, hlink]

/-- Any other name leads one level down. -/
theorem walk_enter (hnone : ∀ target, fs.node? (place ++ [name]) ≠ some (.link target)) :
    fs.walk links place (name :: rest) = fs.walk links (place ++ [name]) rest := by
  rw [walk, h]
  dsimp only
  rw [if_neg hskip, if_neg hup, if_neg hshort]
  split
  · exact absurd ‹_› (hnone _)
  · rfl

end steps

/-- Walking along names and then along others is walking along all of them, perhaps through fewer
links. -/
theorem walk_append (fs : FileSystem) (links : Nat) (place : Location) (names : List FileName) :
    (∃ fault, fs.walk links place names = .error fault ∧
        ∀ rest, fs.walk links place (names ++ rest) = .error fault) ∨
      ∃ here left, fs.walk links place names = .ok here ∧
        ∀ rest, fs.walk links place (names ++ rest) = fs.walk left here rest := by
  fun_induction fs.walk links place names with
  | case1 links place => exact .inr ⟨place, links, rfl, fun _ => rfl⟩
  | case2 links place name rest h | case3 links place name rest content h
  | case4 links place name rest target h =>
    refine .inl ⟨_, rfl, fun more => ?_⟩
    rw [List.cons_append, walk, h]
  | case5 links place name rest h hskip ih =>
    simpa only [List.cons_append, walk_skip h links hskip] using ih
  | case6 links place rest h _ ih =>
    simpa only [List.cons_append, walk_up h links] using ih
  | case7 links place name rest h hskip hup hlong =>
    exact .inl ⟨_, rfl, fun more => walk_tooLong h links hskip hup hlong⟩
  | case8 place name rest h hskip hup hshort target hlink =>
    exact .inl ⟨_, rfl, fun more => walk_tooManyLinks h hskip hup hshort hlink⟩
  | case9 place name rest h hskip hup hshort target hlink links ih =>
    simpa only [List.cons_append, walk_link h links hskip hup hshort hlink,
      List.append_assoc, dite_eq_ite] using ih
  | case10 links place name rest h hskip hup hshort hlink ih =>
    simpa only [List.cons_append, walk_enter h links hskip hup hshort hlink] using ih

/-- From a directory the name of a file in it leads to the file. -/
theorem walk_file (h : fs.node? here = some .directory) (hname : IsEntryName name)
    (hfile : fs.node? (here ++ [name]) = some (.file content)) (links : Nat) :
    fs.walk links here [name] = .ok (here ++ [name]) := by
  rw [walk_enter h links (not_or.mpr ⟨hname.ne_nil, hname.ne_here⟩) hname.ne_up
    (Nat.not_lt.mpr hname.length_le) (by simp [hfile]), walk]

/-- An empty name at the end of a path leads nowhere else. -/
theorem walk_nil_name (h : fs.node? here = some .directory) (links : Nat) :
    fs.walk links here [[]] = .ok here := by
  rw [walk_skip h links (.inl rfl), walk]

/-- A path that leads somewhere is walked along from the root or from the starting place. -/
theorem walk_of_locate (h : fs.locate path = .ok here) : path.bytes ≠ [] ∧
    fs.walk linkLimit (if path.isAbsolute then [] else fs.base) path.names = .ok here := by
  unfold locate at h
  split at h
  · cases h
  · split at h
    · cases h
    · split at h
      · cases h
      · exact ⟨‹_›, h⟩

/-- The names in the path of a file in a directory lead to the place of the file. -/
theorem walk_child (hlocate : fs.locate path = .ok here) (hnode : fs.node? here = some .directory)
    (hname : IsEntryName name) (hfile : fs.node? (here ++ [name]) = some (.file content)) :
    fs.walk linkLimit (if (path.child name).isAbsolute then [] else fs.base)
      (path.child name).names = .ok (here ++ [name]) := by
  obtain ⟨hpath, hwalk⟩ := walk_of_locate hlocate
  obtain ⟨init, hinit, hnames⟩ := FilePath.names_child hpath hname.slash_notMem
  rw [FilePath.isAbsolute_child hpath, hnames]
  generalize (if path.isAbsolute then [] else fs.base) = start at hwalk ⊢
  rcases fs.walk_append linkLimit start init with ⟨fault, herror, hmore⟩ | ⟨at', left, hok, hmore⟩
  · rcases hinit with hinit | hinit
    · rw [hinit, herror] at hwalk
      cases hwalk
    · rw [hinit, hmore] at hwalk
      cases hwalk
  · -- An empty name at the end of the path of the directory does not lead away from it.
    have hhere : at' = here := by
      rcases hinit with hinit | hinit
      · rw [hinit, hok] at hwalk
        exact Except.ok.inj hwalk
      · rw [hinit, hmore] at hwalk
        have hat : fs.node? at' = some .directory := by
          unfold walk at hwalk
          split at hwalk
          all_goals first | assumption | cases hwalk
        rw [walk_nil_name hat] at hwalk
        exact Except.ok.inj hwalk
    rw [hmore, hhere, walk_file hnode hname hfile]

/-- So this path leads to the file, if it leads anywhere. -/
theorem locate_child (hlocate : fs.locate path = .ok here) (hnode : fs.node? here = some .directory)
    (hname : IsEntryName name) (hfile : fs.node? (here ++ [name]) = some (.file content))
    (hchild : fs.locate (path.child name) = .ok place) : place = here ++ [name] := by
  obtain ⟨-, hwalk⟩ := walk_of_locate hchild
  rw [walk_child hlocate hnode hname hfile] at hwalk
  exact (Except.ok.inj hwalk).symm

/-- What is read under a path is the text of the file that the path leads to. -/
theorem read_ok {text : String} (h : fs.read path = .ok text) : ∃ place content,
    fs.locate path = .ok place ∧ fs.node? place = some (.file content) ∧
      FilePath.textOf? content = some text := by
  unfold read find at h
  cases hlocate : fs.locate path with
  | error fault =>
    rw [hlocate] at h
    cases h
  | ok place =>
    rw [hlocate] at h
    simp only [bind, Except.bind] at h
    cases hnode : fs.node? place with
    | none =>
      rw [hnode] at h
      cases h
    | some node =>
      rw [hnode] at h
      cases node with
      | file content =>
        dsimp only at h
        cases htext : FilePath.textOf? content with
        | none =>
          rw [htext] at h
          cases h
        | some text' =>
          rw [htext] at h
          cases h
          exact ⟨place, content, rfl, hnode, htext⟩
      | directory | link => cases h

/-- A file that is listed in a directory is what is read under the name of the directory with that
of the file. -/
theorem read_child (h : fs.IsSound) {entries : List (FileName × Node)}
    (hlist : fs.list path = .ok entries) (hfile : (name, .file content) ∈ entries) {text : String}
    (hread : fs.read (path.child name) = .ok text) : FilePath.textOf? content = some text := by
  obtain ⟨here, hlocate, hnode, hmem⟩ := mem_list hlist
  have hentry := (hmem name _).mp hfile
  have hplace := h.node?_of_mem hentry
  obtain ⟨place, content', hchild, hnode', htext⟩ := read_ok hread
  have hname : IsEntryName name := h.names _ hentry name (by simp)
  rw [locate_child hlocate hnode hname hplace hchild, hplace] at hnode'
  cases hnode'
  exact htext

/-- A path that the file system takes: it is neither empty nor too long, and has no zero byte. -/
structure IsTaken (path : FilePath) : Prop where
  ne_nil : path.bytes ≠ []
  zero_notMem : path.bytes.contains 0 = false
  length_lt : path.bytes.length < pathLimit

instance (path : FilePath) : Decidable (IsTaken path) :=
  decidable_of_iff (path.bytes ≠ [] ∧ path.bytes.contains 0 = false ∧ path.bytes.length < pathLimit)
    ⟨fun ⟨h₁, h₂, h₃⟩ => ⟨h₁, h₂, h₃⟩, fun ⟨h₁, h₂, h₃⟩ => ⟨h₁, h₂, h₃⟩⟩

/-- A path that is taken is walked along. -/
theorem IsTaken.locate_eq (h : IsTaken path) :
    fs.locate path = fs.walk linkLimit (if path.isAbsolute then [] else fs.base) path.names := by
  unfold locate
  rw [if_neg (Bool.eq_false_iff.mp h.zero_notMem), if_neg h.ne_nil,
    if_neg (Nat.not_le.mpr h.length_lt)]

/-- Each text file that is listed in a directory can be read, if its path is taken. -/
theorem read_listed (h : fs.IsSound) {entries : List (FileName × Node)}
    (hlist : fs.list path = .ok entries) (hfile : (name, .file content) ∈ entries)
    (htaken : IsTaken (path.child name)) {text : String}
    (htext : FilePath.textOf? content = some text) : fs.read (path.child name) = .ok text := by
  obtain ⟨here, hlocate, hnode, hmem⟩ := mem_list hlist
  have hentry := (hmem name _).mp hfile
  have hplace := h.node?_of_mem hentry
  have hname : IsEntryName name := h.names _ hentry name (by simp)
  unfold read find
  rw [htaken.locate_eq, walk_child hlocate hnode hname hplace]
  simp [bind, Except.bind, hplace, htext]

/-! ## The same in another order -/

/-- The other file system holds the same in some order. -/
structure Reorders (fs other : FileSystem) : Prop where
  base_eq : other.base = fs.base
  perm : other.nodes.Perm fs.nodes

theorem Reorders.refl (fs : FileSystem) : fs.Reorders fs := ⟨rfl, .refl _⟩

/-- A sound file system is sound in any order. -/
theorem IsSound.reorders (hsound : fs.IsSound) (h : fs.Reorders other) : other.IsSound where
  nodup := (h.perm.map Prod.fst).nodup_iff.mpr hsound.nodup
  names := fun p hp => hsound.names p (h.perm.mem_iff.mp hp)
  base := fun p hp => h.base_eq ▸ hsound.base p (h.perm.mem_iff.mp hp)

namespace Reorders

variable (h : fs.Reorders other) (hnodup : (fs.nodes.map Prod.fst).Nodup)

include h hnodup

/-- The same is at each place, since no place is taken twice. -/
theorem node?_eq (place : Location) : other.node? place = fs.node? place := by
  unfold node?
  rw [h.base_eq, Assoc.find?_perm hnodup h.perm]

/-- Names lead to the same place. The induction is that of the walk. -/
theorem walk_eq (links : Nat) (place : Location) (names : List FileName) :
    other.walk links place names = fs.walk links place names := by
  have hnode := h.node?_eq hnodup
  fun_induction fs.walk links place names with
  | case1 links place => rw [walk]
  | case2 links place name rest hplace | case3 links place name rest content hplace
  | case4 links place name rest target hplace =>
    rw [walk, hnode, hplace]
  | case5 links place name rest hplace hskip ih =>
    rw [walk_skip ((hnode place).trans hplace) links hskip, ih]
  | case6 links place rest hplace _ ih =>
    rw [walk_up ((hnode place).trans hplace) links, ih]
  | case7 links place name rest hplace hskip hup hlong =>
    exact walk_tooLong ((hnode place).trans hplace) links hskip hup hlong
  | case8 place name rest hplace hskip hup hshort target hlink =>
    exact walk_tooManyLinks ((hnode place).trans hplace) hskip hup hshort ((hnode _).trans hlink)
  | case9 place name rest hplace hskip hup hshort target hlink links ih =>
    refine Eq.trans ?_ ih
    exact walk_link ((hnode place).trans hplace) links hskip hup hshort ((hnode _).trans hlink)
  | case10 links place name rest hplace hskip hup hshort hlink ih =>
    refine Eq.trans ?_ ih
    refine walk_enter ((hnode place).trans hplace) links hskip hup hshort fun target => ?_
    rw [hnode]
    exact hlink target

/-- A path leads to the same place. -/
theorem locate_eq (path : FilePath) : other.locate path = fs.locate path := by
  simp only [locate, h.walk_eq hnodup, h.base_eq]

/-- The same is read under a path. -/
theorem read_eq (path : FilePath) : other.read path = fs.read path := by
  simp only [read, find, h.locate_eq hnodup, h.node?_eq hnodup]

/-- Whatever the order, the same is listed, or nothing can be listed for the same reason. -/
theorem list_eq (path : FilePath) :
    (∃ fault, fs.list path = .error fault ∧ other.list path = .error fault) ∨
      ∃ entries listed, fs.list path = .ok entries ∧ other.list path = .ok listed ∧
        listed.Perm entries := by
  simp only [list, h.locate_eq hnodup, h.node?_eq hnodup]
  cases fs.locate path with
  | error fault => exact .inl ⟨fault, rfl, rfl⟩
  | ok here =>
    simp only [bind, Except.bind]
    split
    · exact .inr ⟨_, _, rfl, rfl, h.perm.filterMap _⟩
    · exact .inl ⟨_, rfl, rfl⟩
    · exact .inl ⟨_, rfl, rfl⟩

end Reorders

end FileSystem
end Views
