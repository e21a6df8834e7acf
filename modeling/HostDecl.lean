import HostDecl.AtomTable
import HostDecl.Interface.Builder
import HostDecl.Interface.Basic
import HostDecl.Layout.Sizing
import HostDecl.Registry
import HostDecl.Report.Reporter
import HostDecl.Version
import HostDecl.Writer.Tree
import HostDecl.Backend.C
import HostDecl.Backend.Llvm
import HostDecl.Backend.Rust
import HostDecl.Generate
import HostDecl.Toml.Blank
import HostDecl.Toml.Draft
import HostDecl.Toml.Quoted
import HostDecl.Toml.Reader
import HostDecl.Config.Settings
import HostDecl.Interface.Load
import HostDecl.Cli.Disk
import HostDecl.Cli.Options
import HostDecl.Cli.Run
import HostDecl.Main
import HostDecl.Proofs.Layout.Calculator
import HostDecl.Proofs.Session.Steps
import HostDecl.Proofs.Interface.Order
import HostDecl.Proofs.Session.Sheet
import HostDecl.Proofs.Session.Run
import HostDecl.Proofs.Backend.C
import HostDecl.Proofs.Backend.Rust
import HostDecl.Proofs.Backend.Llvm
import HostDecl.Proofs.Generate.Acceptance
import HostDecl.Proofs.Generate.OneLine
import HostDecl.Proofs.Generate.Pieces
import HostDecl.Proofs.Layout.DataLayout
import HostDecl.Proofs.Generate.IrLayouts
import HostDecl.Proofs.Header.Reader
import HostDecl.Proofs.Header.Statements
import HostDecl.Proofs.Header.Lines
import HostDecl.Proofs.Generate.Header
import HostDecl.Proofs.InStep
import HostDecl.Proofs.Interface.Rename
import HostDecl.Proofs.Session.Outcomes
import HostDecl.Proofs.Session.Coupling
import HostDecl.Proofs.Backend.Uniform
import HostDecl.Proofs.Layout.InStep
import HostDecl.Proofs.Generate.Idents
import HostDecl.Proofs.Layout.Cache
import HostDecl.Proofs.Layout.Marks
import HostDecl.Proofs.Session.Cache
import HostDecl.Proofs.Generate.KeptLayouts
import HostDecl.Proofs.Reads
import HostDecl.Proofs.Interface.Format
import HostDecl.Proofs.Interface.Loader
import HostDecl.Proofs.Failures
import HostDecl.Proofs.Interface.Coherence
import HostDecl.Proofs.Layout.Cycles
import HostDecl.Proofs.Backend.Failures
import HostDecl.Proofs.Generate.Loaded
import HostDecl.Proofs.Backend.Refusals
import HostDecl.Proofs.Generate.Aliases
import HostDecl.Proofs.Generate.Skipping
import HostDecl.Proofs.Generate.EnumRange
import HostDecl.Proofs.Generate.NameClashes
import HostDecl.Proofs.Cli.Stages
import HostDecl.Proofs.Cli.Clashes
import HostDecl.Proofs.Backend.Silent
import HostDecl.Proofs.Cli.Exact
import HostDecl.Proofs.Generate.LineCounts
import HostDecl.Proofs.Layout.Placement
import HostDecl.Proofs.Layout.Containment
import HostDecl.Proofs.Layout.Widening
import HostDecl.Proofs.Name.Boundaries
import HostDecl.Proofs.Name.Escaping
import HostDecl.Proofs.Writer.Tree
import HostDecl.Proofs.Cli.Machine
import HostDecl.Proofs.Interface.Builder
import HostDecl.Proofs.Name.Identifiers
import HostDecl.Proofs.Generate.Enumerators
