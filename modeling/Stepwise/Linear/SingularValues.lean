/-!
# Singular values

The singular values of a matrix with at most as many rows as columns are the lengths of its rows after
rotations that make the rows orthogonal to each other. Every rotation acts on two rows. Sweeps over all
pairs of rows go on until no pair needs a rotation any more. All entries are first divided by the
largest of them, so that no square overflows.
-/

namespace Stepwise.Linear

/-- The sum of the products of two rows. -/
def dot (p q : List Float) : Float :=
  (p.zip q).foldl (fun sum (a, b) => sum + a * b) 0.0

/-- Adds multiples of two rows. -/
def combine (a : Float) (p : List Float) (b : Float) (q : List Float) : List Float :=
  List.zipWith (fun u v => a * u + b * v) p q

/-- The largest magnitude in some rows. -/
def largestEntry (rows : List (List Float)) : Float :=
  rows.flatten.foldl (fun most value => if most < value.abs then value.abs else most) 0.0

/-- Two rows count as orthogonal if the cosine of their angle has at most this magnitude. -/
def orthogonality : Float :=
  1e-16

/-- Rotates two rows so that they become orthogonal, and says whether a rotation was needed. -/
def rotate (p q : List Float) : List Float × List Float × Bool :=
  let pp := dot p p
  let qq := dot q q
  let pq := dot p q
  if orthogonality * (pp.sqrt * qq.sqrt) < pq.abs then
    let slope := (qq - pp) / (2.0 * pq)
    let root := slope.abs + (1.0 + slope * slope).sqrt
    let tangent := if slope < 0.0 then -1.0 / root else 1.0 / root
    let cosine := 1.0 / (1.0 + tangent * tangent).sqrt
    let sine := cosine * tangent
    (combine cosine p (-sine) q, combine sine p cosine q, true)
  else (p, q, false)

/-- Rotates a row against each of the rows after it. -/
def rotateAgainst (p : List Float) : List (List Float) → List Float × List (List Float) × Bool
  | [] => (p, [], false)
  | q :: rest =>
    let (p, q, here) := rotate p q
    let (p, rest, there) := rotateAgainst p rest
    (p, q :: rest, here || there)

/-- Rotates every pair of rows once, for at most `count` rows. -/
def sweep : Nat → List (List Float) → List (List Float) × Bool
  | 0, rows => (rows, false)
  | _ + 1, [] => ([], false)
  | count + 1, p :: rest =>
    let (p, rest, here) := rotateAgainst p rest
    let (rest, there) := sweep count rest
    (p :: rest, here || there)

/-- Sweeps until all pairs of rows are orthogonal, at most `limit` times. -/
def orthogonalize : Nat → List (List Float) → List (List Float)
  | 0, rows => rows
  | limit + 1, rows =>
    let (rotated, changed) := sweep rows.length rows
    if changed then orthogonalize limit rotated else rotated

/-- The length of a row. The entries are divided by the largest of them before they are squared. -/
def rowLength (row : List Float) : Float :=
  let most := largestEntry [row]
  if most == 0.0 then 0.0
  else
    let scaled := row.map (· / most)
    (dot scaled scaled).sqrt * most

/-- The singular values of a matrix of finite entries that has at most as many rows as columns. -/
def singularValues (rows : List (List Float)) : List Float :=
  let scale := largestEntry rows
  if scale == 0.0 then rows.map fun _ => 0.0
  else
    let scaled := rows.map (·.map (· / scale))
    (orthogonalize 60 scaled).map fun row => rowLength row * scale

end Stepwise.Linear
