import Provenance.Bom.Document
import Provenance.Bom.Note
import Provenance.Build.Mode
import Provenance.Cli.Args
import Provenance.Cli.Run
import Provenance.Config.Basic
import Provenance.Config.Toml
import Provenance.Digest.Block
import Provenance.Digest.Sha1
import Provenance.Digest.Sha256
import Provenance.Files.Error
import Provenance.Files.Path
import Provenance.Files.Tree
import Provenance.Gitoid.Alg
import Provenance.Gitoid.Basic
import Provenance.Gitoid.Blob
import Provenance.Gitoid.Error
import Provenance.Ledger.Basic
import Provenance.Ledger.Ops
import Provenance.Ledger.Snapshot
import Provenance.Ledger.Vpath
import Provenance.Main
import Provenance.Make.Quote
import Provenance.Make.Rules
import Provenance.Proofs.DocumentBuild
import Provenance.Proofs.DocumentParse
import Provenance.Proofs.GitoidOrder
import Provenance.Proofs.GitoidText
import Provenance.Proofs.HexOrder
import Provenance.Proofs.HexRoundTrip
import Provenance.Proofs.LedgerDependencies
import Provenance.Proofs.LedgerTargets
import Provenance.Proofs.MakeLines
import Provenance.Proofs.MakeQuoting
import Provenance.Proofs.MakeWidth
import Provenance.Proofs.MakeWrapping
import Provenance.Proofs.NoteBounds
import Provenance.Proofs.NoteRoundTrip
import Provenance.Proofs.PathPieces
import Provenance.Proofs.ScanOrder
import Provenance.Proofs.SessionFinish
import Provenance.Proofs.SnapshotRestore
import Provenance.Proofs.SnapshotRoundTrip
import Provenance.Proofs.StoreLayout
import Provenance.Proofs.StoreMemory
import Provenance.Proofs.StoreMirror
import Provenance.Proofs.StoreRefinement
import Provenance.Proofs.StoreVerify
import Provenance.Proofs.StoreWalk
import Provenance.Proofs.TreeWalk
import Provenance.Proofs.Utf8RoundTrip
import Provenance.Proofs.VpathRewrite
import Provenance.Session.Basic
import Provenance.Session.Error
import Provenance.Session.Report
import Provenance.Store.Disk
import Provenance.Store.Error
import Provenance.Store.Memory
import Provenance.Store.Metadata
import Provenance.Store.OnDisk
import Provenance.Store.Scan
import Provenance.Store.Verify
import Provenance.Text.CodeRanges
import Provenance.Text.Escape
import Provenance.Text.GraphemeExtend
import Provenance.Text.Hex
import Provenance.Text.Json
import Provenance.Text.Printable
import Provenance.Text.Utf8
