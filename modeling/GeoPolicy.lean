import GeoPolicy.Main
import GeoPolicy.Proofs.AdditiveIPv6
import GeoPolicy.Proofs.CommandLine.Reproduce
import GeoPolicy.Proofs.Diagnostics
import GeoPolicy.Proofs.Draft
import GeoPolicy.Proofs.InstalledRanges
import GeoPolicy.Proofs.Location
import GeoPolicy.Proofs.Parity
import GeoPolicy.Proofs.Parity.Difference
import GeoPolicy.Proofs.PolicyFile
import GeoPolicy.Proofs.RangeTable.Accounting
import GeoPolicy.Proofs.RangeTable.Canonical
import GeoPolicy.Proofs.RangeTable.SingleRegion
import GeoPolicy.Proofs.RangeTable.Synthesized
import GeoPolicy.Proofs.RangeTable.Text
import GeoPolicy.Proofs.Region
import GeoPolicy.Proofs.Remote
import GeoPolicy.Proofs.Script.Order
import GeoPolicy.Proofs.SettingNames
import GeoPolicy.Proofs.Synthesis.Words
