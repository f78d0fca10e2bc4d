import PageCompiler.ClientData

/-!
# The client script

Every page carries one script: a function that is called at once and holds the reference table, the
first values of the client state, the helpers that behavior uses, and the behavior itself. The
behavior runs once the page is parsed, so that it finds every element. The helpers stay inside the
function unless they are published.
-/

namespace PageCompiler.Bootstrap

/-- The script up to the reference table. -/
def beforeReferences : Text :=
  "(function()\x7b\n\"use strict\";\nvar $refTable = ".toList

/-- The script between the reference table and the client state. -/
def beforeState : Text :=
  ";\nvar $seed = ".toList

/-- The helpers, which follow the client state. -/
def helpers : Text :=
  List.intercalate ['\n'] ([
    ";",
    "var $watchers = \x7b\x7d;",
    "",
    "var $refs = \x7b",
    "  get: function (name) \x7b",
    "    if (!Object.prototype.hasOwnProperty.call($refTable, name)) return null;",
    "    return document.getElementById($refTable[name]);",
    "  \x7d",
    "\x7d;",
    "",
    "function $same(a, b) \x7b",
    "  if (Object.is(a, b)) return true;",
    "  if (a === null || b === null || typeof a !== \"object\" || typeof b !== \"object\") return false;",
    "  try \x7b",
    "    return JSON.stringify(a) === JSON.stringify(b);",
    "  \x7d catch (err) \x7b",
    "    return false;",
    "  \x7d",
    "\x7d",
    "",
    "function $watch(key, fn) \x7b",
    "  if (!$watchers[key]) $watchers[key] = [];",
    "  $watchers[key].push(fn);",
    "\x7d",
    "",
    "var $state = new Proxy(Object.assign(\x7b\x7d, $seed), \x7b",
    "  set: function (target, key, value) \x7b",
    "    var previous = target[key];",
    "    if (Object.prototype.hasOwnProperty.call(target, key) && $same(previous, value)) \x7b",
    "      return true;",
    "    \x7d",
    "    target[key] = value;",
    "    var list = $watchers[key] || [];",
    "    for (var i = 0; i < list.length; i++) \x7b",
    "      try \x7b",
    "        list[i](value, previous);",
    "      \x7d catch (err) \x7b",
    "        console.error(\"[sitecraft:runtime] watcher for \" + String(key) + \" failed\", err);",
    "      \x7d",
    "    \x7d",
    "    return true;",
    "  \x7d",
    "\x7d);",
    "",
    "function $on(id, event, fn) \x7b",
    "  var el = document.getElementById(id);",
    "  if (!el) \x7b",
    "    console.warn(\"[sitecraft:runtime] no element #\" + id + \" for \" + event);",
    "    return;",
    "  \x7d",
    "  el.addEventListener(event, fn);",
    "\x7d",
    "",
    "function $text(key, id, fn) \x7b",
    "  var render = fn || function (value) \x7b return value; \x7d;",
    "  var el = document.getElementById(id);",
    "  if (!el) \x7b",
    "    console.warn(\"[sitecraft:runtime] no element #\" + id + \" for state \" + key);",
    "    return;",
    "  \x7d",
    "  var apply = function (value) \x7b",
    "    var out = render(value);",
    "    el.textContent = out === undefined || out === null ? \"\" : String(out);",
    "  \x7d;",
    "  if (Object.prototype.hasOwnProperty.call($state, key)) apply($state[key]);",
    "  $watch(key, apply);",
    "\x7d",
    ""].map String.toList)

/-- Publishes the helpers for other scripts of the page. -/
def publication : Text :=
  List.intercalate ['\n'] ([
    "window.$refs = $refs;",
    "window.$state = $state;",
    "window.$watch = $watch;",
    ""].map String.toList)

/-- Opens the function that the behavior runs in. -/
def beforeBehavior : Text :=
  "var boot=function()\x7b\n".toList

/-- Closes the function of the behavior, and calls it once the page is parsed. -/
def afterBehavior : Text :=
  List.intercalate ['\n'] ([
    "",
    "\x7d;",
    "if(document.readyState===\"loading\")\x7bdocument.addEventListener(" ++
      "\"DOMContentLoaded\",boot);\x7delse\x7bboot();\x7d",
    "\x7d)();"].map String.toList)

/-- The client script for a reference table and a client state, both as JSON text, and a
behavior. -/
def compose (references state behavior : Text) (publish : Bool) : Text :=
  beforeReferences ++ references ++ beforeState ++ state ++ helpers ++
    (if publish then publication else []) ++ beforeBehavior ++ behavior ++ afterBehavior

end PageCompiler.Bootstrap
