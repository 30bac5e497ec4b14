import Bindery.Spelling.Registry
import Bindery.Text.Substitution

/-!
# Writing names out in full

Names in the spelling of a type, as an author writes them inside a namespace, are given the scopes
they need outside.
-/

set_option autoImplicit false

namespace Bindery

namespace TypeRegistries

/-- The qualified name of a registered simple name that differs from it. -/
def longerName? (registries : TypeRegistries) (simple : String) : Option String :=
  (registries.qualifiedName? simple).filter (· != simple)

/-- Writes out the registered names that no `::` precedes. -/
def qualifyNames (registries : TypeRegistries) (spelling : String) : String :=
  Text.replaceIdentifiers registries.longerName? spelling

/-- The edit that writes out the name of a template after the word `typename` at a place. -/
def typenameEdit? (registries : TypeRegistries) (cs : List Char) (place : Nat) : Option Edit :=
  let after := cs.drop (place + "typename".length)
  let trimmed := Chars.trimStart after
  let start := place + "typename".length + (after.length - trimmed.length)
  let name := trimmed.takeWhile Chars.isIdentChar
  if (trimmed.drop name.length).head? == some '<' then
    (registries.longerName? (String.ofList name)).map fun full =>
      ⟨start, start + name.length, full.toList⟩
  else
    none

/-- Writes out the names of templates that follow the word `typename`. -/
def qualifyTypenames (registries : TypeRegistries) (spelling : String) : String :=
  let cs := spelling.toList
  let edits := (Chars.findWord cs "typename".toList).filterMap (registries.typenameEdit? cs)
  String.ofList ((Edits.empty.pushAll edits).1.apply cs)

/-- The base name of a template spelling, written out if it has no scope yet. -/
def qualifyBase (registries : TypeRegistries) (base : String) : String :=
  if Text.containsText "::" base then base
  else (registries.qualifiedName? (Text.trim base)).getD base

/-- Writes out the base name of a template spelling and the names in its arguments, down to a
depth. -/
def qualifyTemplateTo (registries : TypeRegistries) : Nat → String → String
  | 0, spelling => spelling
  | depth + 1, spelling =>
      match Text.splitTemplate spelling with
      | none => registries.qualifyNames spelling
      | some (base, args, rest) =>
          let args := (Text.templateArgs args).map (registries.qualifyTemplateTo depth)
          registries.qualifyBase base ++ "<" ++ Text.joinArgs args ++ ">" ++ rest

/-- Writes out the base name of a template spelling and the names in its arguments.  Arguments are
shorter than the spelling, so its length bounds their depth. -/
def qualifyTemplate (registries : TypeRegistries) (spelling : String) : String :=
  registries.qualifyTemplateTo (spelling.length + 1) spelling

end TypeRegistries

namespace Spelling

/-- Puts in front of a spelling the scopes of `qualified` that come before the rightmost occurrence
of the spelling's own first component. -/
def prefixScope (spelling qualified : String) : String :=
  match Text.splitScope spelling with
  | [] => spelling
  | written :: _ =>
      let first := Text.stripTemplateArgs written
      let outer := (Text.splitScope qualified).reverse.dropWhile (· != first)
      match outer.drop 1 with
      | [] => spelling
      | scopes => Text.joinScope scopes.reverse ++ "::" ++ spelling

/-- Canonical arguments that contain one of these are internals of a library. -/
def internals : List String :=
  ["__", "std::allocator<", "char_traits<", "std::less<", "std::hash<", "equal_to<",
   "default_delete<"]

/-- The canonical arguments of a template, except where they reduce a written name to a builtin
type; down to a depth. -/
def restoreArgsTo : Nat → String → String → String
  | 0, _, canonical => canonical
  | depth + 1, written, canonical =>
      let written := Text.templateArgs written
      let restore (index : Nat) (core : String) : String :=
        match written[index]? with
        | none => core
        | some own =>
            if own = core then core
            else if Text.isPrimitive core then own
            else
              match Text.splitTemplate own, Text.splitTemplate core with
              | some (_, ownArgs, _), some (base, coreArgs, rest) =>
                  base ++ "<" ++ restoreArgsTo depth ownArgs coreArgs ++ ">" ++ rest
              | _, _ => core
      Text.joinArgs ((Text.templateArgs canonical).mapIdx restore)

/-- The canonical arguments of a template, except where they reduce a written name to a builtin
type. -/
def restoreArgs (written canonical : String) : String :=
  restoreArgsTo (canonical.length + 1) written canonical

/-- Takes over the arguments of the canonical form if they have more scopes than the written ones
and show no internals of a library. -/
def withCanonicalArgs (spelling canonical : String) : String :=
  match Text.splitTemplate spelling, Text.splitTemplate canonical with
  | some (base, args, rest), some (_, core, _) =>
      if Chars.scopeCount args.toList < Chars.scopeCount core.toList
          && !internals.any (Text.containsText · core) then
        base ++ "<" ++ restoreArgs args core ++ ">" ++ rest
      else
        spelling
  | _, _ => spelling

/-- Puts `const` in front of a spelling that does not start so. -/
def withConst (isConst : Bool) (spelling : String) : String :=
  if isConst && !Text.startsWith "const " spelling then "const " ++ spelling else spelling

end Spelling

end Bindery
