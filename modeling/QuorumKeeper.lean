import QuorumKeeper.ClientSearch
import QuorumKeeper.ClientSettings
import QuorumKeeper.CommandLine.Fault
import QuorumKeeper.CommandLine.Parse
import QuorumKeeper.CommandLine.Similarity
import QuorumKeeper.CommandLine.Syntax
import QuorumKeeper.Config.Access
import QuorumKeeper.Config.Basic
import QuorumKeeper.Config.Parse
import QuorumKeeper.Config.Render
import QuorumKeeper.Config.Schema
import QuorumKeeper.Credentials.Source
import QuorumKeeper.Credentials.Store
import QuorumKeeper.Duration
import QuorumKeeper.Error.Aggregate
import QuorumKeeper.Error.Client
import QuorumKeeper.Error.Operation
import QuorumKeeper.Event
import QuorumKeeper.Files.Path
import QuorumKeeper.Files.Tree
import QuorumKeeper.Inventory
import QuorumKeeper.Machine
import QuorumKeeper.Main
import QuorumKeeper.Member
import QuorumKeeper.Net.Address
import QuorumKeeper.Net.Dialer
import QuorumKeeper.Net.Uri
import QuorumKeeper.Operator.Command
import QuorumKeeper.Operator.Log
import QuorumKeeper.Operator.Run
import QuorumKeeper.Program
import QuorumKeeper.Proofs.AcceptedConfigurations
import QuorumKeeper.Proofs.Attempts
import QuorumKeeper.Proofs.Cancellation
import QuorumKeeper.Proofs.CancelledFleet
import QuorumKeeper.Proofs.CandidateSearch
import QuorumKeeper.Proofs.ClusterHistories
import QuorumKeeper.Proofs.ClusterRuns
import QuorumKeeper.Proofs.ClusterTraces
import QuorumKeeper.Proofs.Conduct
import QuorumKeeper.Proofs.ConfigRoundTrip
import QuorumKeeper.Proofs.ConfigValues
import QuorumKeeper.Proofs.Connections
import QuorumKeeper.Proofs.Directories
import QuorumKeeper.Proofs.DurationTexts
import QuorumKeeper.Proofs.ErrorTrees
import QuorumKeeper.Proofs.FailedOperations
import QuorumKeeper.Proofs.FailedStoring
import QuorumKeeper.Proofs.FileTrees
import QuorumKeeper.Proofs.FreshListing
import QuorumKeeper.Proofs.GuardedRemovals
import QuorumKeeper.Proofs.Handovers
import QuorumKeeper.Proofs.JoiningMembers
import QuorumKeeper.Proofs.LeaderLocation
import QuorumKeeper.Proofs.LeaderSearch
import QuorumKeeper.Proofs.LiveMembership
import QuorumKeeper.Proofs.MemberListings
import QuorumKeeper.Proofs.MemberLists
import QuorumKeeper.Proofs.MembersKept
import QuorumKeeper.Proofs.MessageMerge
import QuorumKeeper.Proofs.Numerals
import QuorumKeeper.Proofs.Provisioning
import QuorumKeeper.Proofs.ReconcileReports
import QuorumKeeper.Proofs.Reconciliations
import QuorumKeeper.Proofs.RepeatedHandovers
import QuorumKeeper.Proofs.RepeatedRemoval
import QuorumKeeper.Proofs.SocketAddresses
import QuorumKeeper.Proofs.StaleMembers
import QuorumKeeper.Proofs.StoredCredentials
import QuorumKeeper.Proofs.TomlDocuments
import QuorumKeeper.Proofs.TomlStrings
import QuorumKeeper.Proofs.TomlTables
import QuorumKeeper.Proofs.TomlTrees
import QuorumKeeper.Proofs.UnambiguousNames
import QuorumKeeper.Proofs.UnknownFields
import QuorumKeeper.Proofs.WireRecords
import QuorumKeeper.Quorum
import QuorumKeeper.Session
import QuorumKeeper.Store.Basic
import QuorumKeeper.Store.InMemory
import QuorumKeeper.Store.Remote
import QuorumKeeper.Store.Scripted
import QuorumKeeper.Text.Binary64
import QuorumKeeper.Text.Blank
import QuorumKeeper.Text.Json
import QuorumKeeper.Text.Numeral
import QuorumKeeper.Text.Printable
import QuorumKeeper.Text.Quoted
import QuorumKeeper.Text.Substring
import QuorumKeeper.Text.Utf8
import QuorumKeeper.Tls.Base64
import QuorumKeeper.Tls.Certificate
import QuorumKeeper.Tls.Curve
import QuorumKeeper.Tls.Der
import QuorumKeeper.Tls.Digest
import QuorumKeeper.Tls.Edwards
import QuorumKeeper.Tls.Material
import QuorumKeeper.Tls.Mint
import QuorumKeeper.Tls.Modular
import QuorumKeeper.Tls.Pem
import QuorumKeeper.Tls.PrivateKey
import QuorumKeeper.Toml.Document
import QuorumKeeper.Toml.Number
import QuorumKeeper.Toml.Printer
import QuorumKeeper.Toml.Quoted
import QuorumKeeper.Toml.Reader
import QuorumKeeper.Toml.Value
import QuorumKeeper.Wire.Message
import QuorumKeeper.Wire.Record
import QuorumKeeper.Wire.Schema
import QuorumKeeper.Wire.Varint
import QuorumKeeper.Workload
import QuorumKeeper.Proofs.NodeResolution
