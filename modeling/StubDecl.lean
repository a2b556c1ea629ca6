import StubDecl.Log
import StubDecl.Main
import StubDecl.Proofs.Cache.Change
import StubDecl.Proofs.Cache.Provenance
import StubDecl.Proofs.Cache.Refinement
import StubDecl.Proofs.Layout
import StubDecl.Proofs.Line.ParameterList
import StubDecl.Proofs.Line.TagName
import StubDecl.Proofs.Project.Check
import StubDecl.Proofs.Project.LastRun
import StubDecl.Proofs.Reordering
import StubDecl.Proofs.Run.Increment
import StubDecl.Proofs.Run.Sessions
import StubDecl.Proofs.Run.Transparency
import StubDecl.Proofs.Scan.Comment
import StubDecl.Proofs.Scan.Grammar
import StubDecl.Proofs.Scan.Lines
import StubDecl.Proofs.Scan.Location
import StubDecl.Proofs.Scan.Property
import StubDecl.Proofs.Scan.Receiver
import StubDecl.Proofs.Scan.Reference
import StubDecl.Proofs.SecondClass
import StubDecl.Proofs.Settings.Enumeration
import StubDecl.Proofs.Settings.Hash
import StubDecl.Proofs.Signature
import StubDecl.Proofs.Trash
import StubDecl.Proofs.Watch.Debounce
import StubDecl.Proofs.Watch.Growth
import StubDecl.Proofs.Watch.History
