/-!
# Unit kinds and phases

A unit of a stack is a service or a project. Its work is done in up to three phases, in this order:
initialisation, build, deployment. Services are never built.
-/

namespace Rollout

/-- What a unit is. -/
inductive UnitKind
  | service
  | project
  deriving DecidableEq, Inhabited

namespace UnitKind

/-- Both kinds, in the order in which sections are read. -/
def all : List UnitKind := [.service, .project]

def text : UnitKind → String
  | .service => "service"
  | .project => "project"

/-- The name of the section that lists units of the kind. -/
def plural (k : UnitKind) : String := k.text ++ "s"

def ofText? (s : String) : Option UnitKind := all.find? fun k => k.text == s

theorem ofText?_text (k : UnitKind) : ofText? k.text = some k := by
  cases k <;> rfl

end UnitKind

/-- A step of the work on a unit. -/
inductive Phase
  | init
  | build
  | deploy
  deriving DecidableEq, Inhabited

namespace Phase

/-- The phases in the order in which they run. -/
def all : List Phase := [.init, .build, .deploy]

def text : Phase → String
  | .init => "init"
  | .build => "build"
  | .deploy => "deploy"

/-- The place of the phase in the order. -/
def index : Phase → Nat
  | .init => 0
  | .build => 1
  | .deploy => 2

/-- The name of the mark that a stored record has for a finished phase. -/
def doneFlag : Phase → String
  | .init => "initialized"
  | .build => "built"
  | .deploy => "deployed"

def appliesTo (p : Phase) (k : UnitKind) : Bool :=
  !(p == .build && k == .service)

def ofText? (s : String) : Option Phase := all.find? fun p => p.text == s

theorem ofText?_text (p : Phase) : ofText? p.text = some p := by
  cases p <;> rfl

theorem index_injective {p q : Phase} (h : p.index = q.index) : p = q := by
  cases p <;> cases q <;> simp_all [index]

end Phase

end Rollout
