import Spreadsheet.Document.Editing
import Spreadsheet.Document.Exchange
import Spreadsheet.Document.Formatting

/-!
The operations on documents as data, so that what a user does is a list of operations. An operation
that fails leaves the document and all files as they are.
-/

namespace Spreadsheet

inductive Operation where
  | write (cell : Position) (input : String)
  | writeNamed (name input : String)
  | clearContent (cell : Position)
  | recalculate
  | undo
  | redo
  | click (cell : Position)
  | extendSelection (cell : Position)
  | toggleSelection (cell : Position)
  | clearSelection
  | toggleStyle (flag : StyleFlag)
  | cycleAlign
  | applyFill (color : Option String)
  | applyBorders (preset : BorderPreset)
  | insertTable (style : String)
  | insertStyledTable (style : TableStyle)
  | resize (extent : Extent) (confirm : List Position → Bool)
  | setColumnWidth (col : Nat) (width : Float)
  | setRowHeight (row : Nat) (height : Float)
  | setColumnFilter (col : Nat) (texts : Std.ExtTreeSet String)
  | clearColumnFilter (col : Nat)
  | renameWorkbook (name : String)
  | addSheet (name : Option String)
  | renameSheet (index : Nat) (name : String)
  | deleteSheet (index : Nat)
  | duplicateSheet (index : Nat)
  | activate (index : Nat)
  | activateNamed (name : String)
  | load (text : String)
  | openFile (path : String)
  | save
  | saveAs (path : String)
  | importText (text : String)
  | importFile (path : String)
  | exportFile (path : String)

/-- A document that is being edited, and the files around it. -/
structure Session where
  document : Document
  files : Files

namespace Session

/-- The session with the document that an operation has led to. -/
def follow {α : Type} (session : Session) (result : Document.Done α) : Session :=
  { session with document := result.document }

def perform (session : Session) (operation : Operation) : Except Failure Session :=
  let d := session.document
  match operation with
  | .write cell input => (d.write cell input).map session.follow
  | .writeNamed name input => (d.writeNamed name input).map session.follow
  | .clearContent cell => (d.clearContent cell).map session.follow
  | .recalculate => .ok (session.follow d.recalculate)
  | .undo => d.undo.map session.follow
  | .redo => d.redo.map session.follow
  | .click cell => (d.click cell).map session.follow
  | .extendSelection cell => (d.extendSelection cell).map session.follow
  | .toggleSelection cell => (d.toggleSelection cell).map session.follow
  | .clearSelection => .ok { session with document := d.clearSelection }
  | .toggleStyle flag => .ok (session.follow (d.toggleStyle flag))
  | .cycleAlign => .ok (session.follow d.cycleAlign)
  | .applyFill color => .ok (session.follow (d.applyFill color))
  | .applyBorders preset => (d.applyBorders preset).map session.follow
  | .insertTable style => (d.insertTableNamed style).map session.follow
  | .insertStyledTable style => (d.insertTable style).map session.follow
  | .resize extent confirm => (d.resize extent confirm).map session.follow
  | .setColumnWidth col width => (d.setColumnWidth col width).map session.follow
  | .setRowHeight row height => (d.setRowHeight row height).map session.follow
  | .setColumnFilter col texts => (d.setColumnFilter col texts).map session.follow
  | .clearColumnFilter col => .ok { session with document := d.clearColumnFilter col }
  | .renameWorkbook name => .ok { session with document := d.renameWorkbook name }
  | .addSheet name => (d.addSheet name).map session.follow
  | .renameSheet index name => (d.renameSheet index name).map session.follow
  | .deleteSheet index => (d.deleteSheet index).map session.follow
  | .duplicateSheet index => (d.duplicateSheet index).map session.follow
  | .activate index => (d.activate index).map session.follow
  | .activateNamed name => (d.activateNamed name).map session.follow
  | .load text => (d.load text).map session.follow
  | .openFile path => (d.openFile session.files path).map session.follow
  | .save => (d.save session.files).map fun (document, files) => ⟨document, files⟩
  | .saveAs path => (d.saveAs session.files path).map fun (document, files) => ⟨document, files⟩
  | .importText text => (d.importText text).map session.follow
  | .importFile path => (d.importFile session.files path).map session.follow
  | .exportFile path =>
    (d.exportFile session.files path).map fun files => { session with files := files }

/-- The session after an operation, whether or not it fails. -/
def after (session : Session) (operation : Operation) : Session :=
  match session.perform operation with
  | .ok next => next
  | .error _ => session

def run (session : Session) (operations : List Operation) : Session :=
  operations.foldl after session

end Session

/-- The documents that come about under some settings: a new one, one that was opened at a path, and
all that operations make of these. -/
inductive Document.Reachable (settings : Settings) : Document → Prop where
  | new : Reachable settings (.new settings)
  | ofPath {files : Files} {path : Option String} {result : Document.Done Unit}
      (h : Document.ofPath settings files path = .ok result) :
      Reachable settings result.document
  | perform {session next : Session} {operation : Operation}
      (start : Reachable settings session.document)
      (h : session.perform operation = .ok next) : Reachable settings next.document

end Spreadsheet
