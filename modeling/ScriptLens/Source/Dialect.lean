namespace ScriptLens

inductive Dialect where
  | ts
  | tsx
  | js
  | jsx
deriving DecidableEq

inductive Grammar where
  | typescript
  | tsx
  | javascript
deriving DecidableEq

namespace Dialect

def all : List Dialect :=
  [ts, tsx, js, jsx]

def label : Dialect → String
  | ts => "ts"
  | tsx => "tsx"
  | js => "js"
  | jsx => "jsx"

def grammar : Dialect → Grammar
  | ts => .typescript
  | tsx => .tsx
  | js | jsx => .javascript

def suffix (file : String) : String :=
  .ofList (file.toList.reverse.takeWhile (· != '.')).reverse

/-- The dialect that a file name's suffix tells. For any other suffix it is plain script if that is
allowed, else typed script. -/
def ofFileName (file : String) (allowJs : Bool) : Dialect :=
  match suffix file with
  | "ts" => ts
  | "tsx" => tsx
  | "js" => js
  | "jsx" => jsx
  | _ => if allowJs then js else ts

end Dialect

end ScriptLens
