import PlugTaxonomy.Log.Entry
import PlugTaxonomy.Text.Blank
import PlugTaxonomy.Text.Field

/-!
# What is shown of a log

A list of directives such as `info` or `warn,plugc=trace` says down to which severity entries are
shown.  A directive without a severity shows all, one with a name is about the sources whose
name starts so.  Behind a slash, a text may follow that shown entries contain.

* `LogDirective`, `LogFilter` — the directives, and the text that entries contain;
* `LogFilter.read` — the filter that a text denotes, and warnings about the parts without a
  meaning;
* `LogFilter.shows` — whether an entry is shown: the directive with the longest name that fits
  decides.
-/

namespace PlugTaxonomy

/-- The least severity that is shown of the sources whose name starts in a way. -/
structure LogDirective where
  /-- How the names of the sources start, if the directive is not about all. -/
  source : Option String
  /-- The least severity that is shown, if any is. -/
  least : Option Severity
  deriving DecidableEq, Repr

/-- What is shown of a log. -/
structure LogFilter where
  directives : List LogDirective
  contained : Option String
  deriving DecidableEq, Repr

namespace LogFilter

/-! ### Reading -/

/-- A capital ASCII letter for a small one. -/
def raised (c : Char) : Char :=
  if 'a' ≤ c ∧ c ≤ 'z' then Char.ofNat (c.toNat - 32) else c

/-- The least severity that a word stands for, letters counting in either case. -/
def least? (word : List Char) : Option (Option Severity) :=
  match String.ofList (word.map raised) with
  | "OFF" => some none
  | "ERROR" => some (some .error)
  | "WARN" => some (some .warn)
  | "INFO" => some (some .info)
  | "DEBUG" => some (some .debug)
  | "TRACE" => some (some .trace)
  | _ => none

/-- The directive that a text denotes, or the part of it without a meaning.  Blanks count in a
name, but not around a severity. -/
def readDirective (text : List Char) : Except String LogDirective :=
  let about (name : List Char) (least : Option Severity) : LogDirective :=
    ⟨some (String.ofList name), least⟩
  match Text.fields '=' text with
  | [word] =>
    match least? (Text.trim word) with
    | some least => .ok ⟨none, least⟩
    | none => .ok (about word (some .trace))
  | [name, word] =>
    let word := Text.trim word
    if word.isEmpty then .ok (about name (some .trace))
    else
      match least? word with
      | some least => .ok (about name least)
      | none => .error (String.ofList word)
  | _ => .error (String.ofList text)

/-- A warning about a text without a meaning. -/
def warning (text note : String) : String :=
  "warning: invalid logging spec '" ++ text ++ "'" ++ note ++ ", ignoring it"

/-- Directives with one more, which takes the place of one about the same sources. -/
def insert (directive : LogDirective) : List LogDirective → List LogDirective
  | [] => [directive]
  | other :: others =>
    if other.source = directive.source then directive :: others
    else other :: insert directive others

/-- The directives of texts behind those read already, and warnings. -/
def readDirectives (read : List LogDirective) : List (List Char) → List LogDirective × List String
  | [] => (read, [])
  | text :: texts =>
    let text := Text.trim text
    if text.isEmpty then readDirectives read texts
    else
      match readDirective text with
      | .ok directive => readDirectives (insert directive read) texts
      | .error part =>
        let (directives, warnings) := readDirectives read texts
        (directives, warning part "" :: warnings)

/-- The filter that a text denotes, and warnings about the parts without a meaning.  Without
any directive, errors are shown. -/
def read (text : String) : LogFilter × List String :=
  let orErrors (directives : List LogDirective) : List LogDirective :=
    if directives.isEmpty then [⟨none, some .error⟩] else directives
  match Text.fields '/' text.toList with
  | directives :: parts =>
    if 1 < parts.length then (⟨orErrors [], none⟩, [warning text " (too many '/'s)"])
    else
      let (directives, warnings) := readDirectives [] (Text.fields ',' directives)
      (⟨orErrors directives, parts.head?.map String.ofList⟩, warnings)
  | [] => (⟨orErrors [], none⟩, [])

/-! ### Showing -/

/-- The length of the name that a directive is about. -/
def nameLength (directive : LogDirective) : Nat :=
  (directive.source.map String.utf8ByteSize).getD 0

/-- Whether a directive is about a source. -/
def fits (source : LogSource) (directive : LogDirective) : Bool :=
  directive.source.all fun name => name.toList.isPrefixOf source.name.toList

/-- Of two directives the one with the longer name, and of equally long ones the second. -/
def longer (chosen : Option LogDirective) (directive : LogDirective) : Option LogDirective :=
  match chosen with
  | none => some directive
  | some other => if nameLength other ≤ nameLength directive then some directive else some other

/-- The directive that decides about the entries of a source: of those that fit, the one with
the longest name. -/
def deciding? (filter : LogFilter) (source : LogSource) : Option LogDirective :=
  (filter.directives.filter (fits source)).foldl longer none

/-- Whether a text contains another. -/
def contains (text part : List Char) : Bool :=
  match text with
  | [] => part.isEmpty
  | c :: cs => part.isPrefixOf (c :: cs) || contains cs part

/-- Whether an entry is shown. -/
def shows (filter : LogFilter) (entry : LogEntry) : Bool :=
  let severe := match (filter.deciding? entry.source).bind (·.least) with
    | some least => entry.severity.rank ≤ least.rank
    | none => false
  severe && filter.contained.all fun part => contains entry.text.toList part.toList

end LogFilter

end PlugTaxonomy
