import BrokerPolicy.Log.Directive

set_option autoImplicit false

/-!
Which log records are shown. A filter is a list of directives, written between commas. Of those
that say something about a record, the one with the longest target decides. A directive that asks
for a span or for the value of a field says nothing about records outside of spans.
-/

namespace BrokerPolicy.Log

def Record.fieldNames (r : Record) : List String := "message" :: r.fields.map Prod.fst

namespace Directive

def fieldName? (d : Directive) : Option String := d.field.map FieldQuery.name

def asksValue (d : Directive) : Bool := d.field.any FieldQuery.asksValue

def concernsRecords (d : Directive) : Bool := d.span.isNone && !d.asksValue

def covers (d : Directive) (target : String) (fields : List String) : Bool :=
  d.concernsRecords && d.target.all (fun t => t.toList.isPrefixOf target.toList) &&
    d.fieldName?.all (· ∈ fields)

/-- The length of the target in bytes, one more than that of no target. -/
def targetRank (d : Directive) : Nat :=
  match d.target with
  | none => 0
  | some t => t.utf8ByteSize + 1

/-- Whether the second directive decides rather than the first about a record that both cover. A
longer target comes first, then a field that is asked for, then the greater name of the field. If
nothing tells them apart the later one decides. -/
def yieldsTo (d e : Directive) : Bool :=
  if d.targetRank ≠ e.targetRank then d.targetRank < e.targetRank
  else
    match d.fieldName?, e.fieldName? with
    | some m, some n => m ≤ n
    | some _, none => false
    | none, _ => true

end Directive

structure Filter where
  directives : List Directive
deriving DecidableEq

namespace Filter

def off : Filter := ⟨[]⟩

def errors : Filter := ⟨[⟨none, none, none, some .error⟩]⟩

def better (best : Option Directive) (d : Directive) : Option Directive :=
  match best with
  | none => some d
  | some b => if b.yieldsTo d then some d else some b

def decisive (f : Filter) (target : String) (fields : List String) : Option Directive :=
  (f.directives.filter (·.covers target fields)).foldl better none

def passes (f : Filter) (target : String) (fields : List String) (level : Level) : Bool :=
  match f.decisive target fields with
  | none => false
  | some d => d.threshold.shows level

/-- The most talkative threshold that may come into play. Where values of fields are asked for,
that is every one. -/
def loudest (f : Filter) : Threshold :=
  if f.directives.any Directive.asksValue then some .trace
  else f.directives.foldl (fun t d => t.louder d.threshold) none

/-- The texts between commas; empty ones do not count. -/
def pieces (s : String) : List String := (s.splitOn ",").filter (· ≠ "")

/-- Reads a list of directives of which every one has to be well formed. -/
def read? (s : String) : Option Filter :=
  match (pieces s).mapM Directive.read with
  | .ok ds => some ⟨ds⟩
  | .error _ => none

end Filter

structure Selection where
  filter : Filter
  ignored : List (String × DirectiveFault)

namespace Selection

def ofTexts : List String → List Directive × List (String × DirectiveFault)
  | [] => ([], [])
  | s :: rest =>
    let (ds, ignored) := ofTexts rest
    match Directive.read s with
    | .ok d => (d :: ds, ignored)
    | .error fault => (ds, (s, fault) :: ignored)

/-- Reads what can be read of a list of directives. Without any, errors are shown. -/
def read (s : String) : Selection :=
  let (ds, ignored) := ofTexts (Filter.pieces s)
  ⟨if ds.isEmpty then Filter.errors else ⟨ds⟩, ignored⟩

/-- The directives that stand for a level: it holds for the library and for the program. -/
def levelText (level : String) : String :=
  "amqp_context_policy=" ++ level ++ ",context_policy=" ++ level

/-- The setting of the environment decides if it is there and well formed, and else the level. -/
def choose (setting : Option String) (level : String) : Selection :=
  match setting.bind Filter.read? with
  | some f => ⟨f, []⟩
  | none => read (levelText level)

end Selection

def ignoredText (s : String) (fault : DirectiveFault) : String :=
  "ignoring `" ++ s ++ "`: " ++ fault.message

end BrokerPolicy.Log
