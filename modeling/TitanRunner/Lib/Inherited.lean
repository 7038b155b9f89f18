import TitanRunner.Lib.JsonText

/-!
# What every object inherits

A name may be looked up in an object that has no such member, and be found in the prototype of all
objects.  `in` and plain access see these names; the members that JSON names do not hide them.
-/

namespace Inherited

open Utf16

/-- The names in the prototype of all objects. -/
def objectNames : List Utf16 :=
  ["constructor", "__defineGetter__", "__defineSetter__", "hasOwnProperty", "__lookupGetter__",
    "__lookupSetter__", "isPrototypeOf", "propertyIsEnumerable", "toString", "valueOf",
    "__proto__", "toLocaleString"].map ofString

/-- `name in {}` -/
def isInherited (name : Utf16) : Bool := objectNames.contains name

def proto : Utf16 := ofString "__proto__"

end Inherited
