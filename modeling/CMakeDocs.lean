import CMakeDocs.Main
import CMakeDocs.Proofs.Collecting.Awaited
import CMakeDocs.Proofs.Collecting.Changes
import CMakeDocs.Proofs.Collecting.Classes
import CMakeDocs.Proofs.Collecting.Dangling
import CMakeDocs.Proofs.Collecting.Definitions
import CMakeDocs.Proofs.Collecting.Entering
import CMakeDocs.Proofs.Collecting.Frozen
import CMakeDocs.Proofs.Collecting.Generic
import CMakeDocs.Proofs.Collecting.Handling
import CMakeDocs.Proofs.Collecting.Joined
import CMakeDocs.Proofs.Collecting.Keywords
import CMakeDocs.Proofs.Collecting.MarkedChanges
import CMakeDocs.Proofs.Collecting.Marks
import CMakeDocs.Proofs.Collecting.Nesting
import CMakeDocs.Proofs.Collecting.Origins
import CMakeDocs.Proofs.Collecting.Removal
import CMakeDocs.Proofs.Collecting.Returning
import CMakeDocs.Proofs.Collecting.Runs
import CMakeDocs.Proofs.Collecting.Stepwise
import CMakeDocs.Proofs.Collecting.Switches
import CMakeDocs.Proofs.Collecting.Tests
import CMakeDocs.Proofs.Collecting.Values
import CMakeDocs.Proofs.Documenting.Bodies
import CMakeDocs.Proofs.Documenting.Building
import CMakeDocs.Proofs.Documenting.Cleaning
import CMakeDocs.Proofs.Documenting.Columns
import CMakeDocs.Proofs.Documenting.Containment
import CMakeDocs.Proofs.Documenting.Effects
import CMakeDocs.Proofs.Documenting.Entries
import CMakeDocs.Proofs.Documenting.Headings
import CMakeDocs.Proofs.Documenting.Module
import CMakeDocs.Proofs.Documenting.Named
import CMakeDocs.Proofs.Documenting.Page
import CMakeDocs.Proofs.Documenting.Reordered
import CMakeDocs.Proofs.Documenting.Repeated
import CMakeDocs.Proofs.Documenting.Source
import CMakeDocs.Proofs.Documenting.Tables
import CMakeDocs.Proofs.Documenting.Verbatim
import CMakeDocs.Proofs.Downward
import CMakeDocs.Proofs.Grammar
import CMakeDocs.Proofs.Growing
import CMakeDocs.Proofs.LinkFree
import CMakeDocs.Proofs.Locating
import CMakeDocs.Proofs.Naming
import CMakeDocs.Proofs.Outside
import CMakeDocs.Proofs.Paths
import CMakeDocs.Proofs.Reading.Accepted
import CMakeDocs.Proofs.Reading.Comments
import CMakeDocs.Proofs.Reading.Conserved
import CMakeDocs.Proofs.Reading.Documented
import CMakeDocs.Proofs.Reading.Reported
import CMakeDocs.Proofs.Reading.Stream
import CMakeDocs.Proofs.Scanning.Closing
import CMakeDocs.Proofs.Scanning.Comments
import CMakeDocs.Proofs.Scanning.Extents
import CMakeDocs.Proofs.Scanning.Layout
import CMakeDocs.Proofs.Stems
import CMakeDocs.Proofs.Walking.Agreement
import CMakeDocs.Proofs.Walking.Course
import CMakeDocs.Proofs.Walking.Distinct
import CMakeDocs.Proofs.Walking.Exclusion
import CMakeDocs.Proofs.Walking.Following
import CMakeDocs.Proofs.Walking.Lasting
import CMakeDocs.Proofs.Walking.Omission
import CMakeDocs.Proofs.Walking.Shallow
import CMakeDocs.Proofs.Walking.Titles
import CMakeDocs.Proofs.Walking.Trace
import CMakeDocs.Proofs.Walking.Undisturbed
import CMakeDocs.Proofs.Walking.Unfiltered
import CMakeDocs.Proofs.Walking.Writing
import CMakeDocs.Reader.Event
import CMakeDocs.Reader.Query
import CMakeDocs.Rst.Store
