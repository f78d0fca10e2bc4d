import PageCompiler.Json.Printer
import PageCompiler.Text.Blank
import PageCompiler.Text.Quoted

/-!
# Behavior

What runs in the browser is recorded as source text. A handler is the body of a function or a
whole function expression; an entry says when it runs, and is written as one statement of the
client script.
-/

namespace PageCompiler

/-- A function of the client, as source text: its body, or the whole expression. -/
inductive Handler where
  | body (source : Text)
  | callable (source : Text)
deriving DecidableEq

/-- Why a handler or an event is refused. -/
inductive HandlerError where
  | emptySource
  | notAFunction (source : Text)
  | invalidEventName (event : Text)
deriving DecidableEq

/-- The wording of an error. -/
def HandlerError.message : HandlerError → Text
  | .emptySource => "handler source is empty".toList
  | .notAFunction source => Text.quoted source ++ " is not a function or arrow expression".toList
  | .invalidEventName event => "invalid event name ".toList ++ Text.quoted event

namespace Handler

/-- The source text. -/
def source : Handler → Text
  | .body source => source
  | .callable source => source

/-- What follows `word` at the start of a text, by its first character. -/
def nextAfter (word text : Text) : Option Char :=
  if word.isPrefixOf text then (text.drop word.length).head? else none

/-- A function expression starts with one of the words "function" and "async", or holds an
arrow. -/
def isFunctionExpression (source : Text) : Bool :=
  ((nextAfter "function".toList source).any fun c => Text.isBlank c || c = '(' || c = '*') ||
    (nextAfter "async".toList source).any Text.isBlank || Text.occursIn ['=', '>'] source

/-- A handler is valid when it has a source, which for a whole expression is a function. -/
def validate (handler : Handler) : Except HandlerError Unit :=
  let source := Text.trim handler.source
  if source.isEmpty then .error .emptySource
  else
    match handler with
    | .body _ => .ok ()
    | .callable _ => if isFunctionExpression source then .ok () else .error (.notAFunction source)

/-- The handler as an expression. A body is closed on a line of its own, so that a comment at its
end cannot reach the closing brace. -/
def function (handler : Handler) (parameter : Text) : Text :=
  match handler with
  | .body source =>
    "function(".toList ++ parameter ++ [')', '\x7b'] ++ source ++ ['\n', '\x7d']
  | .callable source => ['('] ++ Text.trim source ++ [')']

end Handler

namespace Behavior

/-- What is recorded: a listener, an element whose text follows a state key, or a handler that
runs once the page has loaded. -/
inductive Entry where
  | event (element name : Text) (handler : Handler)
  | stateWatch (key element : Text) (transform : Option Handler)
  | lifecycle (handler : Handler)
deriving DecidableEq

/-- An entry as a statement of the client script. -/
def Entry.statement : Entry → Text
  | .event element name handler =>
    "$on(".toList ++ Json.stringText element ++ [','] ++ Json.stringText name ++ [','] ++
      handler.function "event".toList ++ [')', ';']
  | .stateWatch key element (some transform) =>
    "$text(".toList ++ Json.stringText key ++ [','] ++ Json.stringText element ++ [','] ++
      transform.function "value".toList ++ [')', ';']
  | .stateWatch key element none =>
    "$text(".toList ++ Json.stringText key ++ [','] ++ Json.stringText element ++ [')', ';']
  -- A function without a name needs parentheses at the start of a statement.
  | .lifecycle (.body source) =>
    ['('] ++ (Handler.body source).function [] ++ [')', '(', ')', ';']
  | .lifecycle (.callable source) => (Handler.callable source).function [] ++ ['(', ')', ';']

/-- An event name is not empty and holds ASCII letters, digits, hyphens, underscores, colons and
points. -/
def isEventName (event : Text) : Bool :=
  !event.isEmpty &&
    event.all fun c => c.isAlphanum || c = '-' || c = '_' || c = ':' || c = '.'

end Behavior

/-- The recorded entries, in order. -/
abbrev BehaviorLog := List Behavior.Entry

namespace BehaviorLog

/-- Records a listener. -/
def recordEvent (log : BehaviorLog) (element event : Text) (handler : Handler) :
    Except HandlerError BehaviorLog := do
  if !Behavior.isEventName event then
    throw (.invalidEventName event)
  handler.validate
  return log ++ [.event element event handler]

/-- Records an element whose text follows a state key. -/
def recordStateWatch (log : BehaviorLog) (key element : Text) (transform : Option Handler) :
    Except HandlerError BehaviorLog := do
  match transform with
  | some handler => handler.validate
  | none => pure ()
  return log ++ [.stateWatch key element transform]

/-- Records a handler that runs once the page has loaded. -/
def recordLifecycle (log : BehaviorLog) (handler : Handler) : Except HandlerError BehaviorLog := do
  handler.validate
  return log ++ [.lifecycle handler]

/-- The entries as statements, one after another on lines of their own. -/
def script (log : BehaviorLog) : Text :=
  List.intercalate ['\n'] (log.map Behavior.Entry.statement)

end BehaviorLog

end PageCompiler
