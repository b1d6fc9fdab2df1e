import LintSuite.Main
import LintSuite.Simulator.Process.Machine
import LintSuite.Proofs.BlankOutput
import LintSuite.Proofs.Checks
import LintSuite.Proofs.Decoding
import LintSuite.Proofs.ExemptLines
import LintSuite.Proofs.FileArguments
import LintSuite.Proofs.FileGroups
import LintSuite.Proofs.FileText
import LintSuite.Proofs.Findings
import LintSuite.Proofs.Gathering
import LintSuite.Proofs.GeneratedMark
import LintSuite.Proofs.IgnoredNames
import LintSuite.Proofs.LineEnds
import LintSuite.Proofs.LineScan
import LintSuite.Proofs.Messages
import LintSuite.Proofs.ModuleRoot
import LintSuite.Proofs.PatternReadings
import LintSuite.Proofs.Patterns
import LintSuite.Proofs.Plan
import LintSuite.Proofs.PlatformBlocks
import LintSuite.Proofs.RelativePaths
import LintSuite.Proofs.Reports
import LintSuite.Proofs.SettingsFile
import LintSuite.Proofs.SettingsList
import LintSuite.Proofs.SettingsObject
import LintSuite.Proofs.SettingsText
import LintSuite.Proofs.ShownNames
import LintSuite.Proofs.SmallLetters
import LintSuite.Proofs.Survey
import LintSuite.Proofs.WordLists
