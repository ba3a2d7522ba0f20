import Stencil.Compiler
import Stencil.Json.Writer
import Stencil.Render.Run
import Stencil.Settings.Toml
import Stencil.Proofs.Likeness.Basic
import Stencil.Proofs.Licence
import Stencil.Proofs.Likeness.Parallel
import Stencil.Proofs.Likeness.Helpers
import Stencil.Proofs.Likeness.Nodes
import Stencil.Proofs.Likeness.Pages
import Stencil.Proofs.Likeness.Runs
import Stencil.Proofs.Finding
import Stencil.Proofs.Keeping
import Stencil.Proofs.Upkeep
import Stencil.Proofs.Nesting
import Stencil.Proofs.Chain
import Stencil.Host
import Stencil.Proofs.Compilation
import Stencil.Proofs.Likeness.Hosts
import Stencil.Proofs.KeptPrograms
import Stencil.Proofs.KeptPartials
import Stencil.Proofs.ChainLinks
import Stencil.Proofs.SlotHistory
import Stencil.Proofs.Overlay
import Stencil.Proofs.Records
import Stencil.Proofs.Easing
import Stencil.Proofs.Plays.Basic
import Stencil.Proofs.Plays.Helpers
import Stencil.Proofs.Plays.Nodes
import Stencil.Proofs.Plays.Pages
import Stencil.Proofs.Plays.Courses
import Stencil.Proofs.Ending.Basic
import Stencil.Proofs.Ending.Helpers
import Stencil.Proofs.Ending.Nodes
import Stencil.Proofs.Cycles
import Stencil.Proofs.Reading
import Stencil.Proofs.Numerals
import Stencil.Proofs.Paths
import Stencil.Proofs.PlainValues
import Stencil.Proofs.Holdings
import Stencil.Proofs.SourceCalls
import Stencil.Proofs.Numbering
import Stencil.Proofs.Realms
import Stencil.Proofs.Renaming
import Stencil.Proofs.Isolation
import Stencil.Proofs.Resolving
import Stencil.Proofs.Sameness
import Stencil.Proofs.NormalForms
import Stencil.Proofs.Escaping
import Stencil.Proofs.Showing
import Stencil.Proofs.TomlLines
import Stencil.Proofs.SettingsFiles
import Stencil.Proofs.Bridging
import Stencil.Proofs.Branches
import Stencil.Proofs.HelperCalls
import Stencil.Proofs.PartialCalls
