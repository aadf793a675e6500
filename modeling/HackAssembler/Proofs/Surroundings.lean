/-
# Surroundings

What has to be known about a file system to reason about a call. A file system is seen as
a tree of files and the text that was printed, and its operations are known by what they do
to this view: a temporary file is new, a write touches no other file, even if it fails half
way, a move that fails changes nothing, and a file that was made can be removed. Nothing is
said about which files can be opened and read, about the names of temporary files, or about
when an operation fails.

The tree in memory is such a file system. The one thing to show is that a path goes on to
name the same place when a file is put where no directory stands.
-/

import HackAssembler.CommandLine.FileTree

namespace HackAssembler

/-! ## Trees that grow -/

namespace FileTree

/-- Of two nodes that are put at the same place, the later one stays. -/
theorem insert_insert (tree : FileTree) (place : Place) (first second : Node) :
    (tree.insert place first).insert place second = tree.insert place second := by
  obtain ⟨nodes⟩ := tree
  simp only [insert, FileTree.mk.injEq]
  apply Std.ExtTreeMap.ext_getElem?
  intro other
  simp only [Std.ExtTreeMap.getElem?_insert]
  split
  · rfl
  · rfl

/-- What stands in a tree stands in the larger tree too, if not with the same content, and the
directories are directories there. -/
structure Within (tree larger : FileTree) : Prop where
  taken : ∀ place, (tree.node? place).isSome = true → (larger.node? place).isSome = true
  directory : ∀ place, tree.node? place = some .directory → larger.node? place = some .directory

/-- Where no directory stands, there is not the root. -/
theorem ne_nil_of_node? {tree : FileTree} {place : Place}
    (noDirectory : tree.node? place ≠ some .directory) : place ≠ [] := by
  rintro rfl
  exact noDirectory rfl

/-- A file may be put anywhere but in the place of a directory. -/
theorem within_insert {tree : FileTree} {place : Place}
    (noDirectory : tree.node? place ≠ some .directory) (content : Bytes) :
    tree.Within (tree.insert place (.file content)) := by
  have notRoot := ne_nil_of_node? noDirectory
  constructor
  · intro other taken
    rw [node?_insert tree place other _ notRoot]
    split
    · rfl
    · exact taken
  · intro other directory
    have apart : place ≠ other := by
      rintro rfl
      exact noDirectory directory
    rw [node?_insert tree place other _ notRoot, if_neg apart]
    exact directory

/-- A walk ends at the same place in a larger tree. -/
theorem Within.walk {tree larger : FileTree} (within : tree.Within larger) {place found : Place}
    {components : List Bytes} (walked : tree.walk place components = .ok found) :
    larger.walk place components = .ok found := by
  fun_induction FileTree.walk tree place components with
  | case1 => exact walked
  | case2 | case3 | case6 | case7 => cases walked
  | case4 place component rest here stays ih =>
      rw [FileTree.walk, within.directory place here]
      simp only [stays, if_true]
      exact ih walked
  | case5 place rest here moves ih =>
      rw [FileTree.walk, within.directory place here]
      simp only [moves, if_false, if_true]
      exact ih walked
  | case8 place component rest here moves down short taken ih =>
      -- a walk may end at a file, so there has to be something here, but not a directory
      have takenLater : (larger.node? (place ++ [component])).isNone = false := by
        rw [Bool.not_eq_true, Option.isNone_eq_false_iff] at taken
        rw [Option.isNone_eq_false_iff]
        exact within.taken _ taken
      rw [FileTree.walk, within.directory place here]
      simp only [moves, down, short, takenLater, Bool.false_eq_true, if_false]
      exact ih walked

end FileTree

/-! ## File systems seen as trees -/

/-- What is seen of a file system: its tree, what was printed, and which paths name the place
of a file that was made. -/
structure View (σ : Type) where
  tree : σ → FileTree
  printed : σ → Bytes
  Names : σ → Bytes → Place → Prop

namespace View

variable {σ : Type} (view : View σ)

/-- No difference is seen between two states. -/
structure Same (state reached : σ) : Prop where
  tree : view.tree reached = view.tree state
  printed : view.printed reached = view.printed state

variable {view}

theorem Same.refl (state : σ) : view.Same state state := ⟨rfl, rfl⟩

theorem Same.trans {first second third : σ} (before : view.Same first second)
    (after : view.Same second third) : view.Same first third :=
  ⟨after.tree.trans before.tree, after.printed.trans before.printed⟩

variable (view)

/-- What the operations of a file system are known to do. -/
structure Lawful [FileSystem (StateM σ)] : Prop where
  /-- Opening a file changes nothing. -/
  openSource : ∀ {state reached : σ} {path : Bytes} {result : Except FileFault Source},
    FileSystem.openSource (m := StateM σ) path state = (result, reached) → view.Same state reached
  /-- Nothing is left behind where no temporary file can be made. -/
  notCreated : ∀ {state reached : σ} {stem : Bytes} {fault : TemporaryFault},
    FileSystem.createTemporary (m := StateM σ) stem state = (.error fault, reached) →
      view.Same state reached
  /-- A temporary file is made at a free place, which its path names. -/
  created : ∀ {state reached : σ} {stem path : Bytes},
    FileSystem.createTemporary (m := StateM σ) stem state = (.ok path, reached) →
      ∃ place, (view.tree state).node? place = none ∧
        view.tree reached = (view.tree state).insert place (.file []) ∧
        view.printed reached = view.printed state ∧ view.Names reached path place
  /-- Setting the mode of a file leaves its content alone. -/
  modeSet : ∀ {state reached : σ} {path : Bytes} {mode : Nat} {place : Place}
    {result : Except FileFault Unit}, view.Names state path place →
    FileSystem.setMode (m := StateM σ) path mode state = (result, reached) →
      view.Same state reached ∧ view.Names reached path place
  /-- Writing to a file changes its content and nothing else, whether or not all is written. -/
  written : ∀ {state reached : σ} {path text : Bytes} {place : Place}
    {result : Except FileFault Unit}, view.Names state path place →
    FileSystem.write (m := StateM σ) path text state = (result, reached) →
      (∃ content, view.tree reached = (view.tree state).insert place (.file content)) ∧
        view.printed reached = view.printed state ∧ view.Names reached path place
  /-- Closing a file leaves its content alone. -/
  closed : ∀ {state reached : σ} {path : Bytes} {place : Place}
    {result : Except FileFault Unit}, view.Names state path place →
    FileSystem.close (m := StateM σ) path state = (result, reached) →
      view.Same state reached ∧ view.Names reached path place
  /-- A move is made or not made. -/
  notRenamed : ∀ {state reached : σ} {old new path : Bytes} {place : Place} {fault : FileFault},
    view.Names state path place →
    FileSystem.rename (m := StateM σ) old new state = (.error fault, reached) →
      view.Same state reached ∧ view.Names reached path place
  /-- Removing a file clears its place. -/
  removed : ∀ {state reached : σ} {path : Bytes} {place : Place},
    view.Names state path place →
    FileSystem.remove (m := StateM σ) path state = ((), reached) →
      view.tree reached = (view.tree state).erase place ∧
        view.printed reached = view.printed state

end View

/-! ## The tree in memory -/

namespace World

variable {world larger reached : World} {path : Bytes} {place : Place}

/-- The path leads to the place, and there is a file. -/
def Names (world : World) (path : Bytes) (place : Place) : Prop :=
  world.locate path = .ok place ∧ ∃ content, world.tree.node? place = some (.file content)

/-- What is seen of the tree in memory. -/
def view : View World := ⟨World.tree, World.printed, Names⟩

/-- A name that a file can have. -/
def IsFileName (name : Bytes) : Prop :=
  ¬ (name = [] ∨ name = Path.current ∨ name = Path.parent) ∧ ¬ FileTree.maxName < name.length

/-- A path leads to a place by way of the directory that the place is in. -/
theorem locate_eq_ok_iff :
    world.locate path = .ok place ↔
      pathFault? path = none ∧ IsFileName ((Path.components path).getLastD []) ∧
        ∃ directory, world.tree.walk (world.start path) (Path.components path).dropLast =
            .ok directory ∧
          world.tree.node? directory = some .directory ∧
          place = directory ++ [(Path.components path).getLastD []] := by
  simp only [locate]
  generalize (Path.components path).getLastD [] = name
  cases pathFault? path with
  | some fault => simp
  | none =>
      cases world.tree.walk (world.start path) (Path.components path).dropLast with
      | error fault => simp
      | ok directory =>
          cases node : world.tree.node? directory with
          | none => simp [node]
          | some here =>
              cases here with
              | file content => simp [node]
              | directory =>
                  simp only [true_and, Except.ok.injEq, exists_eq_left', node]
                  rw [IsFileName]
                  split
                  · next special => simp only [special, not_true, false_and, reduceCtorEq]
                  · next proper =>
                      split
                      · next long => simp only [long, not_true, and_false, false_and, reduceCtorEq]
                      · next short =>
                          simp only [proper, short, not_false_eq_true, and_self, true_and,
                            Except.ok.injEq, eq_comm]

/-- A path leads to the same place in a larger tree. -/
theorem locate_of_within (found : world.locate path = .ok place)
    (sameStart : larger.workingDirectory = world.workingDirectory)
    (within : world.tree.Within larger.tree) : larger.locate path = .ok place := by
  obtain ⟨noFault, isFileName, directory, walked, here, rfl⟩ := locate_eq_ok_iff.1 found
  have start : larger.start path = world.start path := by rw [start, start, sameStart]
  refine locate_eq_ok_iff.2 ⟨noFault, isFileName, directory, ?_, ?_, rfl⟩
  · rw [start]
    exact within.walk walked
  · exact within.directory directory here

/-- Where no directory stands, a file can be put, and the path names it then. -/
theorem names_insert (found : world.locate path = .ok place)
    (noDirectory : world.tree.node? place ≠ some .directory) (content : Bytes) :
    Names { world with tree := world.tree.insert place (.file content) } path place := by
  have notRoot := FileTree.ne_nil_of_node? noDirectory
  constructor
  · exact locate_of_within found rfl (FileTree.within_insert noDirectory content)
  · exact ⟨content, by rw [FileTree.node?_insert _ _ _ _ notRoot, if_pos rfl]⟩

/-- Either nothing is made, or an empty file at a free place. -/
theorem createFresh_cases {stem : Bytes} {attempts : List Nat}
    {result : Except TemporaryFault Bytes}
    (made : world.createFresh stem attempts = (result, reached)) :
    (∃ fault, result = .error fault ∧ reached = world) ∨
    ∃ path place, result = .ok path ∧ world.locate path = .ok place ∧
      world.tree.node? place = none ∧
      reached = { world with tree := world.tree.insert place (.file []) } := by
  induction attempts with
  | nil =>
      cases made
      exact .inl ⟨_, rfl, rfl⟩
  | cons attempt attempts ih =>
      simp only [createFresh] at made
      split at made
      · cases made
        exact .inl ⟨_, rfl, rfl⟩
      · next found =>
          split at made
          · exact ih made
          · next free =>
              cases made
              rw [Bool.not_eq_true, Option.isSome_eq_false_iff, Option.isNone_iff_eq_none] at free
              exact .inr ⟨_, _, rfl, found, free, rfl⟩

/-- A write to a file lengthens it by a part of the text, which is all of it if the write
succeeds. -/
theorem write_of_names {text content : Bytes} {result : Except FileFault Unit}
    (found : world.locate path = .ok place) (file : world.tree.node? place = some (.file content))
    (wrote : world.write path text = (result, reached)) :
    ∃ taken, (result = .ok () → taken = text) ∧
      reached = { world with tree := world.tree.insert place (.file (content ++ taken)) } := by
  rw [write, found] at wrote
  simp only [file] at wrote
  cases wrote
  refine ⟨_, ?_, rfl⟩
  intro whole
  split at whole
  · next sameLength =>
      rw [Device.taken] at sameLength ⊢
      split
      · rfl
      · next capacity small =>
          rw [small, List.length_take] at sameLength
          exact List.take_of_length_le (by omega)
  · cases whole

/-- A move that fails changes nothing. -/
theorem eq_of_rename_eq_error {old new : Bytes} {fault : FileFault}
    (failed : world.rename old new = (.error fault, reached)) : reached = world := by
  simp only [rename] at failed
  split at failed
  · cases failed
    rfl
  · split at failed
    · cases failed
      rfl
    · cases failed
      rfl
    · split at failed
      · cases failed
        rfl
      · cases failed

/-- The tree in memory does what is asked of a file system. -/
theorem lawful_view : view.Lawful where
  openSource opened := by
    cases opened
    exact .refl _
  notCreated failed := by
    obtain ⟨fault, -, rfl⟩ | ⟨path, place, ⟨⟩, -⟩ := createFresh_cases failed
    exact .refl _
  created made := by
    obtain ⟨fault, ⟨⟩, -⟩ | ⟨path, place, ⟨⟩, found, free, rfl⟩ := createFresh_cases made
    refine ⟨place, free, rfl, rfl, names_insert found ?_ []⟩
    rw [free]
    nofun
  modeSet names set := by
    cases set
    exact ⟨.refl _, names⟩
  written := by
    intro state reached path text place result names wrote
    obtain ⟨found, content, file⟩ := names
    obtain ⟨taken, -, rfl⟩ := write_of_names found file wrote
    refine ⟨⟨content ++ taken, rfl⟩, rfl, names_insert found ?_ _⟩
    rw [file]
    nofun
  closed names closing := by
    cases closing
    exact ⟨.refl _, names⟩
  notRenamed names failed := by
    obtain rfl := eq_of_rename_eq_error failed
    exact ⟨.refl _, names⟩
  removed := by
    intro state reached path place names gone
    obtain ⟨found, -⟩ := names
    have gone : state.remove path = reached := congrArg Prod.snd gone
    rw [remove, found] at gone
    subst gone
    exact ⟨rfl, rfl⟩

end World

end HackAssembler
