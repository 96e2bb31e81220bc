/-
This file holds the syntax tree of a Monkey program. Every node owns its parts;
a block is the list of its statements, and a program is one too. An integer
literal carries its value, so the tree does not remember how it was written.
-/

namespace Monkey

inductive PrefixOperator where
  | bang
  | minus
deriving DecidableEq, Inhabited

inductive InfixOperator where
  | plus
  | minus
  | times
  | divide
  | less
  | greater
  | equal
  | notEqual
deriving DecidableEq, Inhabited

mutual

/-- What has a value. -/
inductive Expression where
  | identifier (name : String)
  | integer (value : Int64)
  | boolean (value : Bool)
  | prefixed (operator : PrefixOperator) (operand : Expression)
  | infixed (left : Expression) (operator : InfixOperator) (right : Expression)
  | conditional (condition : Expression) (consequence : List Statement)
      (alternative : Option (List Statement))
  | function (parameters : List String) (body : List Statement)
  | call (callee : Expression) (arguments : List Expression)

/-- One step of a program or of a block. -/
inductive Statement where
  | binding (name : String) (value : Expression)
  | returning (value : Option Expression)
  | expression (value : Expression)

end

instance : Inhabited Expression := ⟨.boolean false⟩

instance : Inhabited Statement := ⟨.returning none⟩

/-- The statements of a source, in order. -/
structure Program where
  statements : List Statement
deriving Inhabited

end Monkey
