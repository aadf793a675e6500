import HackAssembler.CommandLine.FileTree
import HackAssembler.CommandLine.Run
import HackAssembler.Main
import HackAssembler.Session
import HackAssembler.Proofs.Scanning
import HackAssembler.Proofs.Allocation
import HackAssembler.Proofs.FirstPass
import HackAssembler.Proofs.Computation
import HackAssembler.Proofs.SecondPass
import HackAssembler.Proofs.Assembly
import HackAssembler.Proofs.Agreement
import HackAssembler.Proofs.Translation
import HackAssembler.Proofs.Lifetime
import HackAssembler.Proofs.Comparison
import HackAssembler.Proofs.Reassembly
import HackAssembler.Proofs.Mirroring
import HackAssembler.Proofs.Lines
import HackAssembler.Proofs.Layout
import HackAssembler.Proofs.Renaming
import HackAssembler.Proofs.Disassembly
import HackAssembler.Proofs.Grammar
import HackAssembler.Proofs.Provenance
import HackAssembler.Proofs.Extension
import HackAssembler.Proofs.Calls
import HackAssembler.Proofs.Residue
import HackAssembler.Proofs.Mnemonics
import HackAssembler.Proofs.Places
import HackAssembler.Proofs.Delivery
import HackAssembler.Proofs.Machine
import HackAssembler.Proofs.Operands
import HackAssembler.Proofs.VariableMemory
import HackAssembler.Proofs.Interruption
import HackAssembler.Proofs.Capacity
import HackAssembler.Proofs.FirstBinding
import HackAssembler.Proofs.EntryOrder
import HackAssembler.Proofs.Rereading
import HackAssembler.Proofs.Transcripts
import HackAssembler.Proofs.Transcripts
