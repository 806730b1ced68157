import Rowbase.Language.Reader.Statement
import Rowbase.Main
import Rowbase.Session.Basic
import Rowbase.Shell
import Rowbase.Shell.Line
import Rowbase.Proofs.Acts
import Rowbase.Proofs.Bytes
import Rowbase.Proofs.Heap.Page
import Rowbase.Proofs.Heap.Record
import Rowbase.Proofs.Database.Entries
import Rowbase.Proofs.Database.Finding
import Rowbase.Proofs.Database.Listing
import Rowbase.Proofs.Database.Midway
import Rowbase.Proofs.Database.Rolls
import Rowbase.Proofs.Heap.History
import Rowbase.Proofs.Session.Delete
import Rowbase.Proofs.Session.Indices
import Rowbase.Proofs.Session.Insert
import Rowbase.Proofs.Session.Opening
import Rowbase.Proofs.Session.Queries
import Rowbase.Proofs.Database.Description
import Rowbase.Proofs.Session.Changes
import Rowbase.Proofs.Session.Run
import Rowbase.Proofs.Session.Grouping
import Rowbase.Proofs.Session.Integrity
import Rowbase.Proofs.Session.Reopening
import Rowbase.Proofs.Session.Agreement
import Rowbase.Proofs.Session.Accepting
import Rowbase.Proofs.Session.Planning
import Rowbase.Proofs.Query.Settling
import Rowbase.Proofs.Session.Isolation
import Rowbase.Proofs.Session.Rollback
import Rowbase.Proofs.Language.Written
import Rowbase.Proofs.Session.History
import Rowbase.Proofs.Session.Comparing
import Rowbase.Proofs.Session.Removal
import Rowbase.Proofs.Index.Calls
import Rowbase.Proofs.Session.Restart
import Rowbase.Proofs.Session.Traceless
import Rowbase.Proofs.Session.Home
import Rowbase.Proofs.Language.Grammar
import Rowbase.Proofs.Language.Spelling
import Rowbase.Proofs.Twin.Relation
import Rowbase.Proofs.Twin.Catalog
import Rowbase.Proofs.Twin.Entries
import Rowbase.Proofs.Twin.Matches
import Rowbase.Proofs.Twin.Tandem
import Rowbase.Proofs.Twin.Rows
import Rowbase.Proofs.Twin.Indices
import Rowbase.Proofs.Twin.Tables
import Rowbase.Proofs.Twin.Making
import Rowbase.Proofs.Heap.RoundTrip
import Rowbase.Proofs.Heap.PageHistory
import Rowbase.Proofs.Language.Rereading
import Rowbase.Proofs.Heap.Storing
import Rowbase.Proofs.Index.Multimap
import Rowbase.Proofs.Index.Saving
import Rowbase.Proofs.Index.Order
import Rowbase.Proofs.Query.Refusals
import Rowbase.Proofs.Language.Script
import Rowbase.Proofs.Language.Lines
import Rowbase.Proofs.Heap.BlockHistory
