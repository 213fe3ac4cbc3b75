import LogRendering.Json.Decode
import LogRendering.Json.Writer

/-!
# Context stacks

The nested diagnostic context of an event: a stack of texts, the oldest first.
-/

namespace LogRendering

/-- A stack of texts. -/
structure ContextStack where
  items : List String
deriving DecidableEq

namespace ContextStack

/-- The stack without entries. -/
def empty : ContextStack :=
  ⟨[]⟩

instance : Inhabited ContextStack := ⟨empty⟩

/-- The stack with `entry` on top. -/
def push (stack : ContextStack) (entry : String) : ContextStack :=
  ⟨stack.items ++ [entry]⟩

/-- The top entry of `stack`, if there is one, and the stack without it. -/
def pop (stack : ContextStack) : Option String × ContextStack :=
  (stack.items.getLast?, ⟨stack.items.dropLast⟩)

/-- The number of entries. -/
def size (stack : ContextStack) : Nat :=
  stack.items.length

/-- The stack has no entries. -/
def isEmpty (stack : ContextStack) : Bool :=
  stack.items.isEmpty

/-- The text of `stack`: its entries in square brackets. -/
def display (stack : ContextStack) : String :=
  "[" ++ String.intercalate ", " stack.items ++ "]"

/-- The JSON value of `stack`, an array of its entries. -/
def toJson (stack : ContextStack) : Json.Value :=
  .array (stack.items.map .text)

/-- The stack that the JSON text `s` denotes. -/
def ofJsonText (s : String) : Except Json.Fault ContextStack :=
  ContextStack.mk <$> (Json.Reader.listOf Json.Reader.textValue).run s

end ContextStack

end LogRendering
