/-
# Calls that succeed

A call that succeeds has put the output of one assembly at one place of the tree, and has
left the rest of the tree alone. The temporary file is gone again, since it was moved into
place; and where the output path was derived from the input path, that place is not the
place of the input. What the call prints is the listing of the same assembly, and its lines
stand for the words of the output one by one.

A file system may choose the names of temporary files as it likes. In everything else it is
taken to work on a tree of files as the tree in memory does.
-/

import HackAssembler.Proofs.Assembly
import HackAssembler.Proofs.Calls
import HackAssembler.Proofs.Places
import HackAssembler.Proofs.Provenance

namespace HackAssembler

/-! ## Listings as text -/

namespace Decimal

theorem lineFeed_not_mem_ofNat (n : Nat) : Byte.lineFeed ∉ ofNat n := by
  intro member
  have digit := List.all_eq_true.1 (all_isDigit_ofNat n) _ member
  exact absurd digit (by decide)

theorem lineFeed_not_mem_ofInt (n : Int) : Byte.lineFeed ∉ ofInt n := by
  cases n with
  | ofNat n => exact lineFeed_not_mem_ofNat n
  | negSucc n =>
      rw [ofInt, List.mem_cons, not_or]
      exact ⟨by decide, lineFeed_not_mem_ofNat (n + 1)⟩

end Decimal

/-- An entry is shown on one line if its source and its code are. -/
theorem ListingEntry.lineFeed_not_mem_render {entry : ListingEntry}
    (source : Byte.lineFeed ∉ entry.source) (code : Byte.lineFeed ∉ entry.code) :
    Byte.lineFeed ∉ entry.render := by
  have address := Decimal.lineFeed_not_mem_ofInt entry.address
  have line := Decimal.lineFeed_not_mem_ofInt entry.line
  have gap : Byte.lineFeed ∉ ascii "  " := by decide
  have remark : Byte.lineFeed ∉ ascii "  // line " := by decide
  have colon : Byte.lineFeed ∉ ascii ": " := by decide
  have padding : Byte.lineFeed ∉ Decimal.padLeft 5 (Decimal.ofInt entry.address) := by
    rw [Decimal.padLeft, List.mem_append, not_or]
    refine ⟨fun member => ?_, address⟩
    exact absurd (List.eq_of_mem_replicate member) (by decide)
  simp only [render, List.mem_append, not_or]
  exact ⟨⟨⟨⟨⟨⟨padding, gap⟩, code⟩, remark⟩, line⟩, colon⟩, source⟩

/-- The one line shows the digits of a word, between its address and where it comes from, and
the other line is these digits alone. -/
def ShowsWord (shown word : Bytes) : Prop :=
  ∃ (address line : Int) (digits source : Bytes),
    shown = Decimal.padLeft 5 (Decimal.ofInt address) ++ ascii "  " ++ digits ++
      ascii "  // line " ++ Decimal.ofInt line ++ ascii ": " ++ source ++ [Byte.lineFeed] ∧
    word = digits ++ [Byte.lineFeed]

/-- A listing and the output that it describes have their lines in common. -/
theorem forall₂_showsWord {entries : List ListingEntry}
    (sources : ∀ entry ∈ entries, Byte.lineFeed ∉ entry.source)
    (codes : ∀ entry ∈ entries, Byte.lineFeed ∉ entry.code) :
    List.Forall₂ ShowsWord (Line.split (Report.listing entries))
      (Line.split (outputOf entries)) := by
  have shown : Report.listing entries = Line.join (entries.map ListingEntry.render) := by
    rw [Report.listing, Line.join, List.flatMap_map]
  have words : outputOf entries = Line.join (entries.map ListingEntry.code) := by
    rw [outputOf, Line.join, List.flatMap_map]
  have feedless : ∀ text ∈ entries.map ListingEntry.render, Byte.lineFeed ∉ text := by
    rw [List.forall_mem_map]
    intro entry member
    exact ListingEntry.lineFeed_not_mem_render (sources entry member) (codes entry member)
  have feedless' : ∀ text ∈ entries.map ListingEntry.code, Byte.lineFeed ∉ text :=
    List.forall_mem_map.2 codes
  rw [shown, words, Line.split_join feedless, Line.split_join feedless', List.map_map,
    List.map_map, List.forall₂_map_left_iff, List.forall₂_map_right_iff, List.forall₂_same]
  intro entry _
  exact ⟨entry.address, entry.line, entry.code, entry.source, rfl, rfl⟩

/-- The listing that an assembly leaves behind describes what it has written. -/
theorem Session.showsWord_of_assemble {content : Bytes} {config : Config} {written : Sink}
    {final : Session}
    (done : assemble { content } {} false (new config) = .ok written final) :
    List.Forall₂ ShowsWord (Line.split (Report.listing final.listing.toList))
      (Line.split written.received.toList) := by
  obtain ⟨middle, -, passed⟩ := exists_passes_of_assemble done
  obtain ⟨rfl, output⟩ := secondPass_eq_ok passed
  rw [output, toList_listing_recorded]
  have started : middle.rewound.listing.toList = [] := rfl
  have empty : ({} : Sink).received.toList = [] := rfl
  rw [started, empty, List.nil_append, List.nil_append]
  refine forall₂_showsWord ?_ ?_
  · intro entry member
    obtain ⟨above, line, below, lines, listed⟩ := mem_collect_iff.1 member
    obtain ⟨instruction, -, rfl⟩ := listed?_eq_some_iff.1 listed
    have found : line ∈ ({ content } : Source).lines := by
      rw [lines]
      exact List.mem_append_right above List.mem_cons_self
    exact Line.lineFeed_not_mem_strip (Source.isSingle_of_mem_lines found)
  · intro entry member feed
    obtain ⟨above, line, below, lines, listed⟩ := mem_collect_iff.1 member
    obtain ⟨instruction, -, rfl⟩ := listed?_eq_some_iff.1 listed
    obtain bit | bit := isBit_of_mem_binaryDigits feed
    · exact absurd bit (by decide)
    · exact absurd bit (by decide)

/-! ## Moves -/

namespace World

variable {world reached : World} {old new : Bytes}

/-- A move that is made takes a file to a place where no directory stands. -/
theorem rename_eq_ok (moved : world.rename old new = (.ok (), reached)) :
    ∃ oldPlace newPlace node, world.locate old = .ok oldPlace ∧
      world.locate new = .ok newPlace ∧ world.tree.node? oldPlace = some node ∧
      world.tree.node? newPlace ≠ some .directory ∧
      reached = { world with tree := (world.tree.erase oldPlace).insert newPlace node } := by
  simp only [rename] at moved
  split at moved
  · cases moved
  · next noDirectory =>
      split at moved
      · cases moved
      · cases moved
      · next oldPlace newPlace foundOld foundNew =>
          split at moved
          · cases moved
          · next node here =>
              cases moved
              refine ⟨oldPlace, newPlace, node, foundOld, foundNew, here, ?_, rfl⟩
              intro directory
              have resolved := resolve_of_locate foundNew (by rw [directory]; rfl)
              exact noDirectory (by rw [node?, resolved]; exact directory)

variable {σ : Type}

/-- The states of a file system are worlds, and its operations do to them what they do in the
tree in memory. It may be that operations fail which would not do so there, and temporary
files may have any names. -/
structure Represents [FileSystem (StateM σ)] (world : σ → World) : Prop where
  opened : ∀ {state reached : σ} {path : Bytes} {result : Except FileFault Source},
    FileSystem.openSource (m := StateM σ) path state = (result, reached) →
      world reached = world state ∧
        ∀ source, result = .ok source → (world state).openSource path = .ok source
  created : ∀ {state reached : σ} {stem path : Bytes},
    FileSystem.createTemporary (m := StateM σ) stem state = (.ok path, reached) →
      ∃ place, (world state).locate path = .ok place ∧ (world state).tree.node? place = none ∧
        world reached = { world state with tree := (world state).tree.insert place (.file []) }
  modeSet : ∀ {state reached : σ} {path : Bytes} {mode : Nat},
    FileSystem.setMode (m := StateM σ) path mode state = (.ok (), reached) →
      world reached = world state
  written : ∀ {state reached : σ} {path text : Bytes},
    FileSystem.write (m := StateM σ) path text state = (.ok (), reached) →
      (world state).write path text = (.ok (), world reached)
  closed : ∀ {state reached : σ} {path : Bytes},
    FileSystem.close (m := StateM σ) path state = (.ok (), reached) →
      world reached = world state
  renamed : ∀ {state reached : σ} {old new : Bytes},
    FileSystem.rename (m := StateM σ) old new state = (.ok (), reached) →
      (world state).rename old new = (.ok (), world reached)
  printed : ∀ {state reached : σ} {text : Bytes},
    FileSystem.print (m := StateM σ) text state = ((), reached) →
      world reached = { world state with printed := (world state).printed ++ text }

/-- The tree in memory represents itself. -/
theorem represents_self : Represents fun world : World => world where
  opened opening := by
    cases opening
    exact ⟨rfl, fun _ found => found⟩
  created made := by
    obtain ⟨fault, ⟨⟩, -⟩ | ⟨path, place, ⟨⟩, found, free, rfl⟩ := createFresh_cases made
    exact ⟨place, found, free, rfl⟩
  modeSet set := (congrArg Prod.snd set).symm
  written wrote := wrote
  closed closing := (congrArg Prod.snd closing).symm
  renamed moved := moved
  printed printing := (congrArg Prod.snd printing).symm

end World

/-! ## Outputs -/

section Successes

variable {σ : Type} [FileSystem (StateM σ)] {world : σ → World} {state reached : σ}

/-- The world is as it was at first, but for a file at one place. -/
def World.Holds (world : σ → World) (first : World) (place : Place) (content : Bytes)
    (state : σ) : Prop :=
  world state = { first with tree := first.tree.insert place (.file content) }

namespace World.Represents

variable {first : World} {path : Bytes} {place : Place}

/-- What is written to an empty file is what it holds then. -/
theorem holds_of_written (represents : Represents world) (found : first.locate path = .ok place)
    (free : first.tree.node? place = none) {text : Bytes}
    (holds : Holds world first place [] state)
    (wrote : FileSystem.write (m := StateM σ) path text state = (.ok (), reached)) :
    Holds world first place text reached := by
  have noDirectory : first.tree.node? place ≠ some .directory := by
    rw [free]
    nofun
  obtain ⟨names, -⟩ := names_insert found noDirectory []
  have empty : (first.tree.insert place (.file [])).node? place = some (.file []) := by
    rw [FileTree.node?_insert _ _ _ _ (FileTree.ne_nil_of_node? noDirectory), if_pos rfl]
  have wrote := represents.written wrote
  rw [holds] at wrote
  obtain ⟨taken, whole, behind⟩ := write_of_names names empty wrote
  rw [Holds, behind, whole rfl]
  simp only [FileTree.insert_insert, List.nil_append]

/-- What is delivered is a file with all that was handed over, by a move from where it was
made. -/
theorem leads_deliver (represents : Represents world) (found : first.locate path = .ok place)
    (free : first.tree.node? place = none) (output : Bytes) (transcript : Transcript) :
    Leads (Holds world first place []) (deliver output path transcript)
      (fun session state => transcript.outcome = .ok session ∧
        rename { first with tree := first.tree.insert place (.file transcript.handed) } path
          output = (.ok (), world state)) (fun _ => True) := by
  refine .deliver (Q := Holds world first place transcript.handed) ?_ (.fill ?_ ?_ ?_) ?_ ?_
  · exact .attempt (fun holds set => (represents.modeSet set).trans holds) (fun _ _ => trivial)
  · exact .attempt (fun holds wrote => represents.holds_of_written found free holds wrote)
      (fun _ _ => trivial)
  · intro nothing state holds
    rw [nothing]
    exact holds
  · exact fun _ => trivial
  · exact .attempt (fun holds closing => (represents.closed closing).trans holds)
      (fun _ _ => trivial)
  · refine .attempt (fun holds moved => ?_) (fun _ _ => trivial)
    have moves := represents.renamed moved
    rw [holds] at moves
    exact moves

end World.Represents

/-- An output is written only by way of a temporary file. -/
theorem writeOutput_eq_ok {output : Bytes} {transcript : Transcript} {session : Session}
    (done : writeOutput (m := StateM σ) output transcript state = (.ok session, reached)) :
    ∃ stem temporary made,
      FileSystem.createTemporary (m := StateM σ) stem state = (.ok temporary, made) ∧
      (deliver (m := StateM σ) output temporary transcript).run made = (.ok session, reached) := by
  simp only [writeOutput] at done
  split at done
  · cases done
  · obtain ⟨temporary, made, creation, done⟩ := bind_eq_iff.1 done
    cases temporary with
    | error fault => cases done
    | ok temporary =>
        obtain ⟨delivered, tried, delivery, done⟩ := bind_eq_iff.1 done
        cases delivered with
        | ok session =>
            cases done
            exact ⟨_, temporary, made, creation, delivery⟩
        | error failure =>
            obtain ⟨_, closed, -, done⟩ := bind_eq_iff.1 done
            obtain ⟨_, cleared, -, done⟩ := bind_eq_iff.1 done
            cases done

/-- A file that is made at a free place, filled and moved is in the end put where it was
moved to. -/
theorem World.Represents.puts_of_writeOutput (represents : World.Represents world)
    {output : Bytes} {transcript : Transcript} {session : Session}
    (done : writeOutput (m := StateM σ) output transcript state = (.ok session, reached)) :
    transcript.outcome = .ok session ∧
      ∃ target, (world state).locate output = .ok target ∧
        World.Puts (world state) (world reached) target transcript.handed ∧
        (world reached).printed = (world state).printed := by
  obtain ⟨stem, temporary, made, creation, delivery⟩ := writeOutput_eq_ok done
  obtain ⟨place, found, free, madeWorld⟩ := represents.created creation
  obtain ⟨outcome, moved⟩ :=
    (represents.leads_deliver found free output transcript).passes madeWorld delivery
  have noDirectory : (world state).tree.node? place ≠ some .directory := by
    rw [free]
    nofun
  have puts : World.Puts (world state)
      { world state with tree := (world state).tree.insert place (.file transcript.handed) }
      place transcript.handed := ⟨noDirectory, rfl, rfl⟩
  obtain ⟨oldPlace, target, node, foundOld, foundNew, here, targetFree, behind⟩ :=
    World.rename_eq_ok moved
  -- the temporary file is found where it was made, so nothing is left of it
  cases foundOld.symm.trans (World.locate_of_within found puts.start puts.within)
  cases here.symm.trans ((puts.node?_tree place).trans (if_pos rfl))
  rw [FileTree.erase_insert _ _ _ free] at behind
  refine ⟨outcome, target, puts.locate_of_locate foundNew,
    ⟨?_, by rw [behind], by rw [behind]⟩, by rw [behind]⟩
  exact fun directory => targetFree (puts.within.directory target directory)

/-- Where the output of a call goes. -/
def outputPath (input : Bytes) (options : Options) : Bytes :=
  if options.output.isEmpty then Path.outputName input else options.output

/-- A call succeeds only by way of an output that is written. -/
theorem run_eq_ok {input : Bytes} {options : Options}
    (done : run (m := StateM σ) input options state = (.ok (), reached)) :
    ∃ source opened final ended,
      FileSystem.openSource (m := StateM σ) input state = (.ok source, opened) ∧
      writeOutput (m := StateM σ) (outputPath input options)
        (Session.transcript source options.config) opened = (.ok final, ended) ∧
      FileSystem.print (m := StateM σ) (printout options final) ended = ((), reached) := by
  cases valid : options.config.validate with
  | error error =>
      simp only [run, valid] at done
      cases done
  | ok value =>
      simp only [run, valid] at done
      obtain ⟨source, opened, opening, done⟩ := bind_eq_iff.1 done
      cases source with
      | error fault => cases done
      | ok source =>
          obtain ⟨wrote, ended, writing, done⟩ := bind_eq_iff.1 done
          cases wrote with
          | error failure => cases done
          | ok final =>
              obtain ⟨⟨⟩, printed, printing, done⟩ := bind_eq_iff.1 done
              cases done
              exact ⟨source, opened, final, ended, opening, writing, printing⟩

/-- A transcript that ends well is that of an assembly that succeeds. -/
theorem Session.assemble_of_outcome_transcript {source : Source} {config : Config}
    {final : Session} (ended : (transcript source config).outcome = .ok final) :
    ∃ written, assemble source {} false (new config) = .ok written final ∧
      (transcript source config).handed = written.received.toList := by
  rw [transcript] at ended ⊢
  cases assembled : assemble source {} false (new config) with
  | error failure reached =>
      rw [assembled] at ended
      cases ended
  | ok written reached =>
      rw [assembled] at ended
      cases ended
      exact ⟨written, rfl, rfl⟩

/-- What a call has delivered: `content` is what stood at the input path, `written` and `final`
are what its assembly gives and leaves behind, and `target` is the place of the output. -/
structure Delivers (input : Bytes) (options : Options) (before behind : World) (content : Bytes)
    (written : Sink) (final : Session) (target : Place) : Prop where
  source : before.node? input = some (.file content)
  assembled :
    Session.assemble { content } {} false (Session.new options.config) = .ok written final
  located : before.locate (outputPath input options) = .ok target
  denoted : behind.resolve (outputPath input options) = .ok target
  /-- One file is changed or added, and no other. -/
  tree : ∀ place, behind.tree.node? place =
    if place = target then some (.file written.received.toList) else before.tree.node? place
  /-- An output path that is derived from the input path spares the input. -/
  spared : options.output = [] →
    before.resolve input ≠ .ok target ∧ behind.node? input = some (.file content)
  printed : behind.printed = before.printed ++ printout options final
  /-- The listing alone is printed if nothing else is asked for. -/
  listed : options.verbose = true → options.symbols = false →
    printout options final = Report.listing final.listing.toList ∧
      List.Forall₂ ShowsWord (Line.split (printout options final))
        (Line.split written.received.toList)

/-- What is read as a program is a file. -/
theorem World.exists_file_of_assemble {world : World} {path : Bytes} {source : Source}
    {sink written : Sink} {session final : Session} (opened : world.openSource path = .ok source)
    (done : Session.assemble source sink false session = .ok written final) :
    ∃ place content, world.resolve path = .ok place ∧
      world.tree.node? place = some (.file content) ∧ source = { content } := by
  rw [openSource] at opened
  split at opened
  · cases opened
  · next place resolved =>
      split at opened
      · cases opened
      · cases opened
        obtain ⟨middle, passed, -⟩ := Session.exists_passes_of_assemble done
        obtain ⟨-, ⟨⟩, -⟩ := Session.firstPass_eq_ok_iff.1 passed
      · next content file =>
          cases opened
          exact ⟨place, content, resolved, file, rfl⟩

/-- A call that succeeds has changed one file, at the output path, to what the assembly of the
input gives. The rest of the tree is as before, and the input is part of the rest if the output
path is derived from its path. -/
theorem delivers_of_run (represents : World.Represents world) {input : Bytes} {options : Options}
    (done : run (m := StateM σ) input options state = (.ok (), reached)) :
    ∃ content written final target,
      Delivers input options (world state) (world reached) content written final target := by
  obtain ⟨source, opened, final, ended, opening, writing, printing⟩ := run_eq_ok done
  obtain ⟨outcome, target, located, puts, unprinted⟩ := represents.puts_of_writeOutput writing
  obtain ⟨written, assembled, handed⟩ := Session.assemble_of_outcome_transcript outcome
  rw [handed] at puts
  obtain ⟨sameWorld, opens⟩ := represents.opened opening
  obtain ⟨place, content, resolved, file, rfl⟩ :=
    World.exists_file_of_assemble (opens source rfl) assembled
  have behind := represents.printed printing
  rw [sameWorld] at located puts unprinted
  have puts : World.Puts (world state) (world reached) target written.received.toList :=
    ⟨puts.noDirectory, by rw [behind, puts.tree], by rw [behind, puts.start]⟩
  have source : (world state).node? input = some (.file content) := by
    rw [World.node?, resolved]
    exact file
  refine ⟨content, written, final, target, source, assembled, located, puts.resolve located,
    puts.node?_tree, ?_, ?_, ?_⟩
  · intro derived
    rw [outputPath, derived, List.isEmpty_nil, if_pos rfl] at located
    have apart := World.source_ne_target resolved located
    constructor
    · rw [resolved]
      exact fun same => apart (Except.ok.inj same)
    · rw [puts.node?_of_ne resolved apart]
      exact source
  · rw [behind, unprinted]
  · intro verbose noSymbols
    have listing : printout options final = Report.listing final.listing.toList := by
      simp [printout, verbose, noSymbols]
    rw [listing]
    exact ⟨rfl, Session.showsWord_of_assemble assembled⟩

end Successes

/-- Two calls in a directory with an older output: one that replaces it and prints its listing,
and one whose output path leads back to the input in a roundabout way. -/
theorem delivers_of_run_twice :
    ∃ world reached reached' : World,
      world = (((World.fresh [ascii "home"]).putFile (ascii "a.asm") (ascii "@i\nM=1\n")).putFile
        (ascii "a.hack") (ascii "0000000000000001\n")).putFile (ascii "b.asm") (ascii "@2\n") ∧
      run (m := WorldM) (ascii "a.asm") { verbose := true } world = (.ok (), reached) ∧
      run (m := WorldM) (ascii "b.asm") { output := ascii "../home//./b.asm" } world =
        (.ok (), reached') ∧
      (∃ content written final target, Delivers (ascii "a.asm") { verbose := true } world reached
        content written final target) ∧
      ∃ content written final target, Delivers (ascii "b.asm")
        { output := ascii "../home//./b.asm" } world reached' content written final target := by
  let world := (((World.fresh [ascii "home"]).putFile (ascii "a.asm") (ascii "@i\nM=1\n")).putFile
    (ascii "a.hack") (ascii "0000000000000001\n")).putFile (ascii "b.asm") (ascii "@2\n")
  have passed : callFailure? (run (m := WorldM) (ascii "a.asm") { verbose := true }) world =
      none := by
    decide +kernel
  have passed' : callFailure? (run (m := WorldM) (ascii "b.asm")
      { output := ascii "../home//./b.asm" }) world = none := by
    decide +kernel
  obtain ⟨reached, done⟩ := exists_eq_ok_of_callFailure? passed
  obtain ⟨reached', done'⟩ := exists_eq_ok_of_callFailure? passed'
  exact ⟨world, reached, reached', rfl, done, done',
    delivers_of_run World.represents_self done, delivers_of_run World.represents_self done'⟩

end HackAssembler
