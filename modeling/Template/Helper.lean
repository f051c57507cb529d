/-!
# Helper functions

The three functions that a compiled program may call when it runs: one iterates,
one merges attributes and one joins classes. A program either loads them from a
module or carries their sources.
-/

namespace Template

/-- A function that compiled programs call. -/
inductive Helper where
  /-- Calls a function for each entry of an array or an object. -/
  | iterate
  /-- Merges objects of attributes. -/
  | merge
  /-- Joins classes to one string. -/
  | join
  deriving DecidableEq, Repr

namespace Helper

/-- All helpers. -/
def all : List Helper := [.iterate, .merge, .join]

/-- The short name of a helper. -/
def name : Helper → String
  | .iterate => "map"
  | .merge => "attr"
  | .join => "class"

/-- The identifier by which a program calls a helper. -/
def identifier (helper : Helper) : String := "__" ++ helper.name

/-- The file of a helper in its module. -/
def file (helper : Helper) : String := helper.name ++ ".js"

/-- The helper with a short name or an identifier. -/
def ofName? (name : String) : Option Helper :=
  all.find? fun helper => helper.name == name || helper.identifier == name

/-- The helpers that the source of a helper calls. -/
def dependencies : Helper → List Helper
  | .merge => [.join]
  | .iterate | .join => []

/-- The lines of the function that iterates over arrays and objects. -/
def iterateLines : List String := [
  "function __map(obj, each, alt) \x7b",
  "  var result = [];",
  "  if (obj != null && typeof obj.length === 'number') \x7b",
  "    result = [].map.call(obj, each);",
  "  \x7d else if (obj != null) \x7b",
  "    for (var key in obj) \x7b",
  "      if (Object.prototype.hasOwnProperty.call(obj, key)) result.push(each(obj[key], key));",
  "    \x7d",
  "  \x7d",
  "  return result.length || !alt ? result : alt();",
  "\x7d"]

/-- The lines of the function that joins classes. -/
def joinLines : List String := [
  "function __class() \x7b",
  "  var out = [];",
  "  function add(it) \x7b",
  "    if (it == null || it === '') return;",
  "    if (typeof it !== 'string' && typeof it.length === 'number') \x7b",
  "      [].forEach.call(it, function (el) \x7b",
  "        if (el != null && el !== '') out.push(String(el));",
  "      \x7d);",
  "    \x7d else \x7b",
  "      out.push(String(it));",
  "    \x7d",
  "  \x7d",
  "  [].forEach.call(arguments, add);",
  "  return out.join(' ');",
  "\x7d"]

/-- The lines of the function that merges attributes. -/
def mergeLines : List String := [
  "function __attr() \x7b",
  "  var classes = [];",
  "  var attrs = \x7b\x7d;",
  "  [].forEach.call(arguments, function (it) \x7b",
  "    for (var key in it) \x7b",
  "      var val = it[key];",
  "      if (key === 'class' || key === 'className') \x7b",
  "        classes.push(val);",
  "        continue;",
  "      \x7d",
  "      if (key === 'for') \x7b",
  "        key = 'htmlFor';",
  "      \x7d else if (key.indexOf('data-') === 0) \x7b",
  "        if (val == null || val === 'null') continue;",
  "      \x7d else if (key.indexOf('aria-') !== 0 && key.indexOf('-') !== -1) \x7b",
  "        key = key.split('-').map(function (part, i) \x7b",
  "          return i === 0 ? part : part.charAt(0).toUpperCase() + part.substr(1);",
  "        \x7d).join('');",
  "      \x7d",
  "      attrs[key] = val;",
  "    \x7d",
  "  \x7d);",
  "  if (classes.length) attrs.className = __class.apply(null, classes);",
  "  return attrs;",
  "\x7d"]

/-- The source of a helper, without a line end after it. -/
def source : Helper → String
  | .iterate => "\n".intercalate iterateLines
  | .merge => "\n".intercalate mergeLines
  | .join => "\n".intercalate joinLines

end Helper

end Template
