import DeclMerge.Hierarchy.Basic

/-!
# Queries to a hierarchy

A hierarchy is asked for the functions, the properties or the classifier of a class with some name,
for all members of some kinds and names, and for all clashes. Queries share the caches of all
classes, so what one of them looks up is there for those that follow.

## Main definitions

* `Query`, `Answer` — what a class can be asked, and what it answers
* `ClassScope.answer` — the answer of a class by itself
* `ClassScope.ask`, `Hierarchy.ask` — the answer with the caches of all classes
-/

namespace DeclMerge

/-- What a class can be asked. -/
inductive Query where
  | functions (name : Name)
  | properties (name : Name)
  | classifier (name : Name)
  | all (kinds : KindSet) (wanted : Name → Bool)
  | clashes

/-- What a class answers. -/
inductive Answer where
  | members (members : List Member)
  | classifier (member? : Option Member)
  | clashes (clashes : List Clash)

namespace ClassScope

/-- The answer of a class by itself. -/
def answer (scope : ClassScope) : Query → Answer
  | .functions name => .members (scope.functions name)
  | .properties name => .members (scope.properties name)
  | .classifier name => .classifier (scope.classifier? name)
  | .all kinds wanted => .members (scope.listed kinds wanted)
  | .clashes => .clashes scope.clashes

/-- The answer of a class, with the caches of all classes. -/
def ask (scope : ClassScope) : Query → StateM Caches Answer
  | .functions name => do return .members (← scope.request .function name).members
  | .properties name => do return .members (← scope.request .property name).members
  | .classifier name => return .classifier (scope.classifier? name)
  | .all kinds wanted => do return .members (← scope.requestAll kinds wanted)
  | .clashes => do return .clashes (← scope.requestClashes)

end ClassScope

/-- The answer of the class with a name, if it has a scope, with the caches of all classes. -/
def Hierarchy.ask (hierarchy : Hierarchy) (asked : QualifiedName × Query) :
    StateM Caches (Option Answer) :=
  match hierarchy.get? asked.1 with
  | none => return none
  | some scope => do return some (← scope.ask asked.2)

end DeclMerge
