import Tabular.Expr.Select

/-! Changes of a frame as values. -/

namespace Tabular.Frame

/-- Other frames are named by number. -/
inductive Edit
  | populate (columns : List Column)
  | addColumn (column : Column)
  | prependColumn (column : Column)
  | insertColumn (position : Nat) (column : Column)
  | removeColumn (index : Nat)
  | allowMissing (type : CellType) (index : Nat)
  | disallowMissing (type : CellType) (index : Nat)
  /-- Change the elements of one column of known type, without regard to the others. -/
  | series (type : CellType) (index : Nat) (edit : Buffer.Edit (Cell type))
  /-- Put another series in the place of one column of its type. -/
  | assign (type : CellType) (index : Nat) (series : Series type)
  /-- Change one column, without regard to the others. -/
  | column (index : Nat) (edit : Column.Edit)
  | pushRow (values : List Scalar)
  | insertRow (pos : Nat) (values : List Scalar)
  | pushRowFrom (source row : Nat)
  | insertRowFrom (pos source row : Nat)
  | insertRowWithin (pos row : Nat)
  | insertDefaultRows (pos count : Nat)
  | eraseRows (first last : Nat)
  | popRow
  | set (row column : Nat) (value : Scalar)
  | sort (keys : List Nat)
  | reverseSort (keys : List Nat)
  | retain (condition : Expr)
  | derive (name : String) (e : Expr) (placement : Placement)
  | deriveAs (type : CellType) (name : String) (e : Expr) (placement : Placement)

inductive Reply
  | done
  | count (n : Nat)
  | row (values? : Option (List Scalar))
  | column (column : Column)

def answering {α : Type} (reply : α → Reply) (o : Outcome Frame α) : Outcome Frame Reply :=
  (o.1.map reply, o.2)

private def unit : Outcome Frame Unit → Outcome Frame Reply := answering fun _ => .done

def Edit.run (frames : Nat → Frame) (f : Frame) : Edit → Outcome Frame Reply
  | .populate columns => unit (f.populate columns)
  | .addColumn c => unit (f.addColumn c)
  | .prependColumn c => unit (f.prependColumn c)
  | .insertColumn position c => unit (f.insertColumn position c)
  | .removeColumn i => answering .column (f.removeColumn i)
  | .allowMissing t i => unit (f.allowMissing t i)
  | .disallowMissing t i => unit (f.disallowMissing t i)
  | .series t i e => answering (fun _ => .done) (f.writeSeries t i (·.edit e))
  | .assign t i s => unit (f.writeSeries t i fun _ => (.ok (), s))
  | .column i e =>
    answering (fun n? => (n?.map .count).getD .done) (f.writeColumn i fun c => e.run c)
  | .pushRow values => unit (f.pushRow values)
  | .insertRow pos values => unit (f.insertRow pos values)
  | .pushRowFrom source row => unit (f.pushRowFrom (frames source) row)
  | .insertRowFrom pos source row => unit (f.insertRowFrom pos (frames source) row)
  | .insertRowWithin pos row => unit (f.insertRowWithin pos row)
  | .insertDefaultRows pos count => unit (f.insertDefaultRows pos count)
  | .eraseRows first last => answering .count (f.eraseRows first last)
  | .popRow => answering .row f.popRow
  | .set row i value => unit (f.set row i value)
  | .sort keys => unit (f.sort keys)
  | .reverseSort keys => unit (f.reverseSort keys)
  | .retain condition => answering .count (f.retain condition)
  | .derive name e placement => unit (f.derive name e placement)
  | .deriveAs t name e placement => unit (f.deriveAs t name e placement)

end Tabular.Frame
