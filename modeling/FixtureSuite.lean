import FixtureSuite.Main
import FixtureSuite.Suite.Journal
import FixtureSuite.Suite.Replay
import FixtureSuite.Target.Script
import FixtureSuite.Proofs.Suite.Transcript
import FixtureSuite.Proofs.Suite.Protocol
import FixtureSuite.Proofs.Console.Report
import FixtureSuite.Proofs.Program.Outcome
import FixtureSuite.Proofs.Suite.Tally
import FixtureSuite.Proofs.Program.Stages
import FixtureSuite.Proofs.Files.Join
import FixtureSuite.Proofs.Files.Lookup
import FixtureSuite.Proofs.Text.Utf8
import FixtureSuite.Proofs.Fixture.Discovery
import FixtureSuite.Proofs.Program.Directory
import FixtureSuite.Proofs.Console.Result
import FixtureSuite.Proofs.Console.Cutoff
import FixtureSuite.Proofs.Config.Grammar
import FixtureSuite.Proofs.Config.Loading
import FixtureSuite.Proofs.Config.Resolution
import FixtureSuite.Proofs.Toml.Literal
import FixtureSuite.Proofs.Toml.Writing
import FixtureSuite.Proofs.Config.Writing
import FixtureSuite.Target.Pipes
import FixtureSuite.Proofs.Target.Pipes
import FixtureSuite.Proofs.Target.Ending
import FixtureSuite.Proofs.Console.Layout
import FixtureSuite.Proofs.Console.Captured
import FixtureSuite.Proofs.Console.Order
import FixtureSuite.Proofs.Fixture.Exact
import FixtureSuite.Proofs.Config.Anchoring
import FixtureSuite.Proofs.Files.Dotted
import FixtureSuite.Proofs.Config.Spelling
import FixtureSuite.Proofs.Console.Color
import FixtureSuite.Proofs.Target.Deeds
import FixtureSuite.Proofs.Text.Repair
import FixtureSuite.Proofs.Fixture.Kind
import FixtureSuite.Proofs.Console.Visible
import FixtureSuite.Proofs.Console.Count
