import FormatFuzz.Random.Twister
import FormatFuzz.Program.Dump
import FormatFuzz.Program.Respace
import FormatFuzz.Space.Sampler
import FormatFuzz.Pattern.Search
import FormatFuzz.Fuzz.Loop
import FormatFuzz.Diff.Render
import FormatFuzz.Report.Layout
import FormatFuzz.Corpus.Store
import FormatFuzz.Formatter.Black
import FormatFuzz.Yaml.Reader
import FormatFuzz.Config
import FormatFuzz.Command.Program
import FormatFuzz.Main
import FormatFuzz.Proofs.File.AtomicWrite
import FormatFuzz.Proofs.Text.Utf8
import FormatFuzz.Proofs.Corpus.Save
import FormatFuzz.Proofs.Program.Placement
import FormatFuzz.Proofs.Command.Replay
import FormatFuzz.Proofs.Program.Respace
import FormatFuzz.Proofs.Diff.Script
import FormatFuzz.Proofs.Space.Sampling
import FormatFuzz.Proofs.Fuzz.Consistent
import FormatFuzz.Proofs.Fuzz.Independent
import FormatFuzz.Proofs.Corpus.Latest
import FormatFuzz.Proofs.Pattern.Search
import FormatFuzz.Proofs.Fuzz.Boring
import FormatFuzz.Proofs.Program.WellFormed
import FormatFuzz.Proofs.Corpus.Stopped
import FormatFuzz.Proofs.Command.Damaged
import FormatFuzz.Proofs.Command.Footprint
import FormatFuzz.Proofs.Diff.Kept
import FormatFuzz.Proofs.Diff.Rendered
import FormatFuzz.Proofs.Diff.Marked
import FormatFuzz.Proofs.Fuzz.Budget
import FormatFuzz.Proofs.Shell
import FormatFuzz.Proofs.Formatter.Black
import FormatFuzz.Proofs.Fuzz.DefaultFilter
import FormatFuzz.Proofs.Space.Covered
import FormatFuzz.Proofs.Config
import FormatFuzz.Proofs.Program.Nesting
import FormatFuzz.Proofs.Report.CodeBlock
