import Rv32i.Action
import Rv32i.Assembler
import Rv32i.Command.Arguments
import Rv32i.Command.Help
import Rv32i.Command.Output
import Rv32i.Command.Perform
import Rv32i.Command.Value
import Rv32i.Config.Basic
import Rv32i.Config.Read
import Rv32i.Files
import Rv32i.Hart.Basic
import Rv32i.Hart.Dump
import Rv32i.Instruction.Basic
import Rv32i.Instruction.Encode
import Rv32i.Instruction.Fields
import Rv32i.Instruction.Opcode
import Rv32i.Main
import Rv32i.Memory.Basic
import Rv32i.Memory.Cells
import Rv32i.Path
import Rv32i.Program.ElfFile
import Rv32i.Program.ElfImage
import Rv32i.Program.Format
import Rv32i.Program.Hex
import Rv32i.Program.Load
import Rv32i.Proofs.Acknowledgement
import Rv32i.Proofs.AddressRange
import Rv32i.Proofs.AddressSpace
import Rv32i.Proofs.Arithmetic
import Rv32i.Proofs.Assembler
import Rv32i.Proofs.ByteMap
import Rv32i.Proofs.Bytes
import Rv32i.Proofs.CommandValues
import Rv32i.Proofs.Completion
import Rv32i.Proofs.ControlFlow
import Rv32i.Proofs.Disassembly
import Rv32i.Proofs.Encoding
import Rv32i.Proofs.Execution
import Rv32i.Proofs.Extension
import Rv32i.Proofs.Fields
import Rv32i.Proofs.HexGrammar
import Rv32i.Proofs.HexText
import Rv32i.Proofs.ImageFile
import Rv32i.Proofs.InstructionWords
import Rv32i.Proofs.Lookup
import Rv32i.Proofs.Mailbox
import Rv32i.Proofs.Manual
import Rv32i.Proofs.Numbers
import Rv32i.Proofs.Placement
import Rv32i.Proofs.Refinement
import Rv32i.Proofs.RegisterHistory
import Rv32i.Proofs.Registration
import Rv32i.Proofs.Report
import Rv32i.Proofs.RoundTrip
import Rv32i.Proofs.Schedules
import Rv32i.Proofs.Segments
import Rv32i.Proofs.Setup
import Rv32i.Proofs.SharedMemory
import Rv32i.Proofs.SignExtension
import Rv32i.Proofs.Start
import Rv32i.Proofs.Traps
import Rv32i.Proofs.WordPrograms
import Rv32i.Proofs.Words
import Rv32i.Registers
import Rv32i.Simulation.Basic
import Rv32i.Simulation.Outcome
import Rv32i.Simulation.Region
import Rv32i.Simulation.Setup
import Rv32i.Table.Base
import Rv32i.Table.Basic
import Rv32i.Table.Disassembly
import Rv32i.Text.Print
import Rv32i.Text.Quoted
import Rv32i.Text.Scan
import Rv32i.Text.Terminal
import Rv32i.Text.Utf8
import Rv32i.Toml.Document
import Rv32i.Toml.Quoted
import Rv32i.Toml.Scalar
import Rv32i.Toml.Value
import Rv32i.Trap
import Rv32i.Word
