import TokenLayout.Main
import TokenLayout.Document.Builder
import TokenLayout.Proofs.Findings
import TokenLayout.Proofs.LineLength
import TokenLayout.Proofs.TrailingWhitespace
import TokenLayout.Proofs.PushedTokens
import TokenLayout.Proofs.Nesting
import TokenLayout.Proofs.BuilderSafety
import TokenLayout.Proofs.Strictness
import TokenLayout.Proofs.GeneratedCode
import TokenLayout.Proofs.JsonRoundTrip
import TokenLayout.Proofs.DocumentRoundTrip
import TokenLayout.Proofs.ReportOrder
import TokenLayout.Proofs.RuleEntries
import TokenLayout.Proofs.DiscoveryOrder
import TokenLayout.Proofs.ResultRoundTrip
import TokenLayout.Proofs.CheckOutcome
import TokenLayout.Proofs.TailScan
import TokenLayout.Proofs.SettingsOrder
import TokenLayout.Proofs.TokenCoverage
import TokenLayout.Proofs.RuleFilter
import TokenLayout.Proofs.SettingsResolution
import TokenLayout.Proofs.DirectoryPatterns
import TokenLayout.Proofs.RootIndependence
import TokenLayout.Proofs.LineCuts
import TokenLayout.Proofs.EnclosingAnchors
