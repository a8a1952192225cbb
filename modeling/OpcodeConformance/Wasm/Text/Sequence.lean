import OpcodeConformance.Wasm.Text.Signature

namespace OpcodeConformance.Wasm.Text

/-- The lines without the beginning of a block at their end, which is kept apart because its type
may be declared behind it. -/
def splitOpening (ls : List Line) : List Line × Option Opening :=
  match ls.getLast? with
  | some (.opening o) => (ls.dropLast, some o)
  | _ => (ls, none)

def openingLine (o : Option Opening) : List Line := (o.map .opening).toList

mutual

/-- The lines of forms in front of other lines, behind the beginning of a block whose type may still
be declared. -/
def lines? (s : Scope) (o : Option Opening) : Forms → List Line → Option (List Line)
  | .nil, behind => some (openingLine o ++ behind)
  | .text .., _ => none
  | .words ws rest, behind => do
    let (ls, next) := splitOpening (← linesOfWords? s ws)
    return openingLine o ++ (ls ++ (← lines? s next rest behind))
  | .group inner rest, behind =>
    match o.bind (·.declare? inner) with
    | some o => lines? s (some o) rest behind
    | none => do return openingLine o ++ (← folded? s inner (← lines? s none rest behind))

def folded? (s : Scope) : Forms → List Line → Option (List Line)
  | .words ws rest, behind => do
    match ← linesOfWords? s ws with
    | [] => none
    | .opening o :: ls =>
      if o.kind = .choice then
        if ls.isEmpty then arms? s o true rest behind else none
      else
        let (ls, next) := splitOpening (.opening o :: ls)
        return ls ++ (← lines? s next rest (.ending none :: behind))
    | l :: ls =>
      let (ls, next) := splitOpening ls
      return ls ++ (← lines? s next rest (l :: behind))
  | _, _ => none

/-- The condition of a choice and its arms, of which the second can be left out. All of them are
groups. -/
def arms? (s : Scope) (o : Opening) (isDeclaring : Bool) :
    Forms → List Line → Option (List Line)
  | .group inner rest, behind =>
    match if isDeclaring then o.declare? inner else none with
    | some o => arms? s o true rest behind
    | none =>
      if inner.startsWith "then" then do
        return .opening o :: (← arm? s inner (← otherwise? s rest behind))
      else do folded? s inner (← arms? s o false rest behind)
  | _, _ => none

def arm? (s : Scope) : Forms → List Line → Option (List Line)
  | .words ws rest, behind => do
    let (ls, next) := splitOpening (← linesOfWords? s (ws.drop 1))
    return ls ++ (← lines? s next rest behind)
  | _, _ => none

def otherwise? (s : Scope) : Forms → List Line → Option (List Line)
  | .nil, behind => some (.ending none :: behind)
  | .group inner rest, behind =>
    if inner.startsWith "else" && rest.isNil then do
      return .otherwise none :: (← arm? s inner (.ending none :: behind))
    else none
  | _, _ => none

end

/-- The lines of the group that tells where data is placed, given by what is inside its parentheses.
Its first instruction runs behind all others in it, also where it begins a block, so that no block
is ever whole there. -/
def place? (s : Scope) : Forms → Option (List Line)
  | .words ws rest => do
    match ← linesOfWords? s ws with
    | [] => none
    | [.opening o] =>
      let (o, rest) := o.ofForms rest
      lines? s none rest [.opening o]
    | l :: ls =>
      let (ls, next) := splitOpening ls
      return ls ++ (← lines? s next rest [l])
  | _ => none

def code? (s : Scope) (forms : Forms) : Option Code := (lines? s none forms []).bind Code.ofLines?

end OpcodeConformance.Wasm.Text
