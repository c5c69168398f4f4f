import Walkthrough.Value.Basic

/-! Values whose dates and moments are written out, at any depth, so that every reader can take
them. Keys of maps stay as they are. -/
namespace Walkthrough.Value

variable {ι : Type}

def isoScalar : Scalar → Scalar
  | .date d => .text d.isoText
  | .instant t => .text t.isoText
  | s => s

mutual

def isoDates : Value ι → Value ι
  | .atom s => .atom (isoScalar s)
  | .list label items => .list label (isoItems items)
  | .map label entries => .map label (isoEntries entries)

def isoItems : List (Value ι) → List (Value ι)
  | [] => []
  | v :: rest => isoDates v :: isoItems rest

def isoEntries : List (Scalar × Value ι) → List (Scalar × Value ι)
  | [] => []
  | (k, v) :: rest => (k, isoDates v) :: isoEntries rest

end

end Walkthrough.Value
