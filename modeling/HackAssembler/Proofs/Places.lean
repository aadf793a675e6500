/-
# Where paths lead

A path leads to its place by way of directories only, so a file that comes or goes changes
nothing about where the other paths lead. The output path that belongs to an input path goes
through the same directories and ends in another name, so it never leads to the input,
whatever the input path looks like.
-/

import HackAssembler.Proofs.Surroundings

namespace HackAssembler

/-! ## Components -/

namespace Path

theorem components_ne_nil (path : Bytes) : components path ≠ [] := by
  fun_cases components path with
  | case1 | case2 | case3 | case4 => nofun

/-- The components of a path, with the last one apart. -/
theorem components_eq (path : Bytes) :
    components path = (components path).dropLast ++ [(components path).getLastD []] := by
  rw [List.getLastD_eq_getLast?, List.getLast?_eq_some_getLast (components_ne_nil path),
    Option.getD_some, List.dropLast_concat_getLast]

/-- A text without a slash is a single component. -/
theorem components_of_noSlash {text : Bytes} (noSlash : Byte.slash ∉ text) :
    components text = [text] := by
  induction text with
  | nil => rfl
  | cons b rest ih =>
      rw [List.mem_cons, not_or] at noSlash
      rw [components, if_neg (Ne.symm noSlash.1), ih noSlash.2]

/-- What is added to a path becomes a part of its last component, if it has no slash. -/
theorem components_append {path text name : Bytes} {directories : List Bytes}
    (noSlash : Byte.slash ∉ text) (parts : components path = directories ++ [name]) :
    components (path ++ text) = directories ++ [name ++ text] := by
  induction path generalizing directories name with
  | nil =>
      obtain ⟨rfl, rfl⟩ : directories = [] ∧ name = [] := by
        simpa [components, List.append_eq_singleton_iff] using parts.symm
      exact components_of_noSlash noSlash
  | cons b rest ih =>
      rw [components] at parts
      rw [List.cons_append, components]
      by_cases slash : b = Byte.slash
      · rw [if_pos slash] at parts ⊢
        cases directories with
        | nil => exact absurd (List.cons.inj parts).2 (components_ne_nil rest)
        | cons first directories =>
            obtain ⟨rfl, later⟩ := List.cons.inj parts
            rw [ih later]
            rfl
      · -- the byte goes to the first component, which may be the last one too
        rw [if_neg slash] at parts ⊢
        cases later : components rest with
        | nil => exact absurd later (components_ne_nil rest)
        | cons first others =>
            rw [later] at parts
            cases directories with
            | nil =>
                obtain ⟨rfl, rfl⟩ := List.cons.inj parts
                have alone : components rest = [] ++ [first] := later
                rw [ih alone]
                rfl
            | cons front directories =>
                obtain ⟨rfl, rfl⟩ := List.cons.inj parts
                have others : components rest = (first :: directories) ++ [name] := later
                rw [ih others]
                rfl

theorem isRooted_append {text : Bytes} (noSlash : Byte.slash ∉ text) (path : Bytes) :
    isRooted (path ++ text) = isRooted path := by
  cases path with
  | cons b rest => rfl
  | nil =>
      cases text with
      | nil => rfl
      | cons b rest =>
          rw [List.mem_cons, not_or] at noSlash
          simp [isRooted, Ne.symm noSlash.1]

/-- The output path has the stem of the input path and another ending. -/
theorem exists_outputName_eq (input : Bytes) :
    ∃ stem ending, input = stem ++ ending ∧ Byte.slash ∉ ending ∧ ending ≠ codeExtension ∧
      outputName input = stem ++ codeExtension := by
  rw [outputName]
  by_cases isSource : sourceExtension.isSuffixOf input = true
  · obtain ⟨stem, rfl⟩ := List.isSuffixOf_iff_suffix.1 isSource
    refine ⟨stem, sourceExtension, rfl, by decide, by decide, ?_⟩
    simp
  · refine ⟨input, [], (List.append_nil input).symm, List.not_mem_nil, by decide, ?_⟩
    simp [isSource]

end Path

/-! ## Walks -/

namespace FileTree

variable {tree larger : FileTree} {place found : Place}

/-- A walk goes through the first part of a path and then through the rest. -/
theorem walk_append_eq_ok_iff {first second : List Bytes} :
    tree.walk place (first ++ second) = .ok found ↔
      ∃ middle, tree.walk place first = .ok middle ∧ tree.walk middle second = .ok found := by
  fun_induction FileTree.walk tree place first with
  | case1 place => simp
  | case2 place component rest here => simp [FileTree.walk, here]
  | case3 place component rest content here => simp [FileTree.walk, here]
  | case4 place component rest here stays ih =>
      simp only [List.cons_append, FileTree.walk, here, stays, if_true, ih]
  | case5 place rest here moves ih =>
      simp only [List.cons_append, FileTree.walk, here, moves, if_false, if_true, ih]
  | case6 place component rest here moves down long =>
      simp [FileTree.walk, here, moves, down, long]
  | case7 place component rest here moves down short absent =>
      simp [FileTree.walk, here, moves, down, short, absent]
  | case8 place component rest here moves down short taken ih =>
      simp only [List.cons_append, FileTree.walk, here, moves, down, short, taken,
        Bool.false_eq_true, if_false, ih]

/-- One component stays at a place, goes up from it or goes down to what stands there. -/
theorem walk_singleton_cases {component : Bytes}
    (walked : tree.walk place [component] = .ok found) :
    found = place ∨ found = place.dropLast ∨ found = place ++ [component] := by
  simp only [FileTree.walk] at walked
  split at walked
  · cases walked
  · cases walked
  · split at walked
    · cases walked
      exact .inl rfl
    · split at walked
      · cases walked
        exact .inr (.inl rfl)
      · split at walked
        · cases walked
        · split at walked
          · cases walked
          · cases walked
            exact .inr (.inr rfl)

/-- A walk that ends in another name than that of the file in the same directory does not
lead to this file. -/
theorem ne_of_walk {directories : List Bytes} {name other : Bytes} {directory : Place}
    (walked : tree.walk place (directories ++ [name]) = .ok found)
    (entered : tree.walk place directories = .ok directory) (differ : name ≠ other) :
    found ≠ directory ++ [other] := by
  obtain ⟨middle, first, last⟩ := walk_append_eq_ok_iff.1 walked
  cases entered.symm.trans first
  rcases walk_singleton_cases last with rfl | rfl | rfl
  · intro same
    simpa using congrArg List.length same
  · intro same
    have := congrArg List.length same
    rw [List.length_dropLast, List.length_append, List.length_singleton] at this
    omega
  · intro same
    exact differ (List.singleton_inj.1 (List.append_cancel_left same))

/-- A walk to a directory passes through directories only. -/
theorem walk_of_directories {components : List Bytes}
    (directories : ∀ place, larger.node? place = some .directory →
      tree.node? place = some .directory)
    (walked : larger.walk place components = .ok found)
    (ends : larger.node? found = some .directory) : tree.walk place components = .ok found := by
  fun_induction FileTree.walk larger place components with
  | case1 => exact walked
  | case2 | case3 | case6 | case7 => cases walked
  | case4 place component rest here stays ih =>
      rw [FileTree.walk, directories place here]
      simp only [stays, if_true]
      exact ih walked
  | case5 place rest here moves ih =>
      rw [FileTree.walk, directories place here]
      simp only [moves, if_false, if_true]
      exact ih walked
  | case8 place component rest here moves down short taken ih =>
      have entered : larger.node? (place ++ [component]) = some .directory := by
        cases rest with
        | nil =>
            cases walked
            exact ends
        | cons next rest =>
            rw [FileTree.walk] at walked
            split at walked
            · cases walked
            · cases walked
            · next inner => exact inner
      rw [FileTree.walk, directories place here]
      simp only [moves, down, short, directories _ entered, Option.isNone_some,
        Bool.false_eq_true, if_false]
      exact ih walked

end FileTree

/-! ## Places in the tree in memory -/

namespace World

variable {world larger reached : World} {path : Bytes} {place source target : Place}

theorem resolve_eq_ok_iff :
    world.resolve path = .ok place ↔ pathFault? path = none ∧
      world.tree.walk (world.start path) (Path.components path) = .ok place := by
  rw [resolve]
  cases pathFault? path with
  | some fault => simp
  | none => simp

/-- A path leads to what stands at its place. -/
theorem resolve_of_locate (found : world.locate path = .ok place)
    (taken : (world.tree.node? place).isSome = true) : world.resolve path = .ok place := by
  obtain ⟨noFault, ⟨proper, short⟩, directory, walked, here, rfl⟩ := locate_eq_ok_iff.1 found
  rw [not_or, not_or] at proper
  have present :
      ¬ (world.tree.node? (directory ++ [(Path.components path).getLastD []])).isNone := by
    rwa [Bool.not_eq_true, Option.isNone_eq_false_iff]
  have entered : world.tree.walk directory [(Path.components path).getLastD []] =
      .ok (directory ++ [(Path.components path).getLastD []]) := by
    simp only [FileTree.walk, here, proper, short, present, or_self, Bool.false_eq_true, if_false]
  refine resolve_eq_ok_iff.2 ⟨noFault, ?_⟩
  have reached := FileTree.walk_append_eq_ok_iff.2 ⟨directory, walked, entered⟩
  rwa [← Path.components_eq path] at reached

/-- A path goes on to lead to the same place in a larger tree. -/
theorem resolve_of_within (found : world.resolve path = .ok place)
    (sameStart : larger.workingDirectory = world.workingDirectory)
    (within : world.tree.Within larger.tree) : larger.resolve path = .ok place := by
  obtain ⟨noFault, walked⟩ := resolve_eq_ok_iff.1 found
  have start : larger.start path = world.start path := by rw [start, start, sameStart]
  refine resolve_eq_ok_iff.2 ⟨noFault, ?_⟩
  rw [start]
  exact within.walk walked

/-- A path to a file led to the same place before other files were there. -/
theorem locate_of_directories (found : larger.locate path = .ok place)
    (sameStart : larger.workingDirectory = world.workingDirectory)
    (directories : ∀ place, larger.tree.node? place = some .directory →
      world.tree.node? place = some .directory) : world.locate path = .ok place := by
  obtain ⟨noFault, isFileName, directory, walked, here, rfl⟩ := locate_eq_ok_iff.1 found
  have start : larger.start path = world.start path := by rw [start, start, sameStart]
  rw [start] at walked
  exact locate_eq_ok_iff.2 ⟨noFault, isFileName, directory,
    FileTree.walk_of_directories directories walked here, directories directory here, rfl⟩

/-- The one world has a file put at a place of the other, where no directory stood. -/
structure Puts (world larger : World) (place : Place) (content : Bytes) : Prop where
  noDirectory : world.tree.node? place ≠ some .directory
  tree : larger.tree = world.tree.insert place (.file content)
  start : larger.workingDirectory = world.workingDirectory

namespace Puts

variable {content : Bytes} (puts : Puts world larger target content)

include puts

theorem within : world.tree.Within larger.tree := by
  rw [puts.tree]
  exact FileTree.within_insert puts.noDirectory content

/-- What stands at a place afterwards. -/
theorem node?_tree (other : Place) :
    larger.tree.node? other =
      if other = target then some (.file content) else world.tree.node? other := by
  rw [puts.tree, FileTree.node?_insert _ _ _ _ (FileTree.ne_nil_of_node? puts.noDirectory)]
  simp only [eq_comm]

/-- A path to the place of the file leads to the file. -/
theorem resolve (located : world.locate path = .ok target) : larger.resolve path = .ok target := by
  refine resolve_of_locate (locate_of_within located puts.start puts.within) ?_
  rw [puts.node?_tree, if_pos rfl]
  rfl

/-- What stands at another path is as before. -/
theorem node?_of_ne (found : world.resolve path = .ok place) (apart : place ≠ target) :
    larger.node? path = world.node? path := by
  rw [node?, node?, resolve_of_within found puts.start puts.within, found]
  exact (puts.node?_tree place).trans (if_neg apart)

/-- Paths to files led to the same places before the file was put there. -/
theorem locate_of_locate (found : larger.locate path = .ok place) :
    world.locate path = .ok place := by
  refine locate_of_directories found puts.start ?_
  intro other directory
  rw [puts.node?_tree] at directory
  split at directory
  · cases directory
  · exact directory

end Puts

/-- The output path of an input path does not lead to the input. -/
theorem source_ne_target {input : Bytes} (found : world.resolve input = .ok source)
    (located : world.locate (Path.outputName input) = .ok target) : source ≠ target := by
  obtain ⟨stem, ending, rfl, noSlash, differ, output⟩ := Path.exists_outputName_eq input
  rw [output] at located
  have noSlash' : Byte.slash ∉ Path.codeExtension := by decide
  obtain ⟨-, walked⟩ := resolve_eq_ok_iff.1 found
  obtain ⟨-, -, directory, entered, -, rfl⟩ := locate_eq_ok_iff.1 located
  have sameStart : world.start (stem ++ ending) = world.start (stem ++ Path.codeExtension) := by
    rw [start, start, Path.isRooted_append noSlash, Path.isRooted_append noSlash']
  rw [sameStart, Path.components_append noSlash (Path.components_eq stem)] at walked
  rw [Path.components_append noSlash' (Path.components_eq stem), List.dropLast_concat] at entered
  rw [Path.components_append noSlash' (Path.components_eq stem), List.getLastD_concat]
  refine FileTree.ne_of_walk walked entered ?_
  intro same
  exact differ (List.append_cancel_left same)

end World

end HackAssembler
