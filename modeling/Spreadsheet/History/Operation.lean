import Spreadsheet.History

namespace Spreadsheet

inductive HistoryOperation where
  | record (change : Change)
  | recordBatch (changes : List Change)
  | recordTable (sheet : Nat) (inserted : Table) (changes : List Change)
  | undo
  | redo
  | setCapacity (capacity : Nat)
  | dropSheet (sheet : Nat)
  | dropOutside (sheet : Nat) (extent : Extent)
  | clear
deriving DecidableEq

namespace History

/-- The history after an operation, whether or not there is something to undo or to redo. -/
def after (h : History) : HistoryOperation → History
  | .record change => h.record change
  | .recordBatch changes => h.recordBatch changes
  | .recordTable sheet inserted changes => h.recordTable sheet inserted changes
  | .undo => (h.undo?.map Prod.snd).getD h
  | .redo => (h.redo?.map Prod.snd).getD h
  | .setCapacity capacity => h.setCapacity capacity
  | .dropSheet sheet => h.dropSheet sheet
  | .dropOutside sheet extent => h.dropOutside sheet extent
  | .clear => h.clear

def run (h : History) (operations : List HistoryOperation) : History := operations.foldl after h

end History

end Spreadsheet
