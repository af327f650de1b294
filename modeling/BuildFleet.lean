import BuildFleet.Main
import BuildFleet.Proofs.Json.Strings
import BuildFleet.Proofs.Run
import BuildFleet.Proofs.Selection.Reference
import BuildFleet.Session
import BuildFleet.Proofs.Json.Numbers
import BuildFleet.Proofs.Json.Skipping
import BuildFleet.Proofs.Json.Shapes
import BuildFleet.Proofs.Json.Items
import BuildFleet.Proofs.Json.Records
import BuildFleet.Proofs.Runner.Listing
import BuildFleet.Proofs.Json.Delivery
import BuildFleet.Proofs.Delivery
import BuildFleet.Proofs.Json.Failing
import BuildFleet.Proofs.Machine.Reading
import BuildFleet.Proofs.Selection.Unread
import BuildFleet.Proofs.CutOff
import BuildFleet.Proofs.Failing
import BuildFleet.Proofs.Selection.Division
import BuildFleet.Proofs.Machine.Loading
import BuildFleet.Proofs.CommandLine
import BuildFleet.Proofs.LogFilter
import BuildFleet.Proofs.Process
import BuildFleet.Proofs.Selection.Filled
import BuildFleet.Proofs.Lines
import BuildFleet.Proofs.Selection.Tables
import BuildFleet.Proofs.CommandLine.Override
import BuildFleet.Proofs.Process.Dependence
import BuildFleet.Proofs.Selection.Order
import BuildFleet.Proofs.Selection.Growth
import BuildFleet.Proofs.Machine.Report
import BuildFleet.Proofs.Text.Control
import BuildFleet.Proofs.Json.Naming
import BuildFleet.Proofs.Message
import BuildFleet.Proofs.Selection.Parts
import BuildFleet.Proofs.UnknownMembers
import BuildFleet.Proofs.Machine.Printed
import BuildFleet.Proofs.FirstFault
import BuildFleet.Proofs.Json.Literals
import BuildFleet.Proofs.Json.Fronts
import BuildFleet.Proofs.Spelled
import BuildFleet.Proofs.Session
