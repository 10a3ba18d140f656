/-!
# Function bodies

The generated functions consist of few kinds of statements.  This is their abstract form; how it
is written is a matter of `PlugTaxonomy.Cpp.Printer`.

* `Term` — codes: variables, constants, and a term under the mask of a constant;
* `Condition` — truth values over codes;
* `Answer` — what a function gives back;
* `Statement` — declarations, guards, and switches whose cases do not fall through as long as
  every one of them gives an answer.
-/

namespace PlugTaxonomy.Cpp

/-- A code in a function body. -/
inductive Term where
  /-- A parameter or a declared variable. -/
  | var (name : String)
  /-- A constant of the enumeration. -/
  | constant (name : String)
  /-- The bits of a term that are in a constant of the enumeration. -/
  | masked (term : Term) (mask : String)
  deriving DecidableEq, Repr

/-- A truth value in a function body. -/
inductive Condition where
  | var (name : String)
  | constant (value : Bool)
  | equal (left right : Term)
  | differ (left right : Term)
  /-- Some bit of a term is set. -/
  | nonzero (term : Term)
  | negated (condition : Condition)
  | both (left right : Condition)
  | either (left right : Condition)
  deriving DecidableEq, Repr

/-- What a function gives back. -/
inductive Answer where
  /-- An empty value. -/
  | empty
  /-- The text of a label. -/
  | label (text : String)
  | truth (value : Bool)
  /-- A usage. -/
  | usage (name : String)
  /-- One of two usages, as a variable says. -/
  | choice (flag yes no : String)
  deriving DecidableEq, Repr

/-- A statement of a function body. -/
inductive Statement where
  | comment (text : String)
  | blank
  /-- Declares a variable that holds a code. -/
  | declareCode (name : String) (term : Term)
  /-- Declares a variable that holds a truth value. -/
  | declareTruth (name : String) (condition : Condition)
  | giveBack (answer : Answer)
  /-- Gives an answer if a condition holds, on one line. -/
  | giveBackIf (condition : Condition) (answer : Answer)
  /-- Gives an answer if a condition holds, on a line of its own. -/
  | guard (condition : Condition) (answer : Answer)
  /-- Goes on with the statements behind the constant that equals a term, or with the default. -/
  | switch (term : Term) (cases : List (String × List Statement)) (default : List Statement)

/-- A function with its head and its body. -/
structure Function where
  head : String
  body : List Statement

end PlugTaxonomy.Cpp
