import Spreadsheet.Selection

namespace Spreadsheet

inductive SelectionOperation where
  | click (cell : Position)
  | extend (cell : Position)
  | toggle (cell : Position)
  | prune (extent : Extent)
  | clear
deriving DecidableEq

namespace Selection

def after (s : Selection) : SelectionOperation → Selection
  | .click p => click p
  | .extend p => s.extend p
  | .toggle p => s.toggle p
  | .prune extent => s.prune extent
  | .clear => empty

def run (s : Selection) (operations : List SelectionOperation) : Selection :=
  operations.foldl after s

end Selection

end Spreadsheet
