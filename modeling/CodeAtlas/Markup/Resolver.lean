/-
  File:      CodeAtlas/Markup/Resolver.lean
  Subject:   Names that are asked for again and again in one file.

  * `Resolver`: a linker, and the answers it has given so far.
  * `Resolver.resolve`: what a name refers to. A name that was asked for before is
    not looked up again.
  * `Resolver.resolveAll`: names asked for one after the other.
-/
import CodeAtlas.Markup.Linker

namespace CodeAtlas.Markup

/-- A linker, and its answers by name. That a name refers to nothing is an answer, too. -/
structure Resolver where
  linker : Linker
  answers : List (Text × Option Target) := []

namespace Resolver

/-- What a name refers to, and what is known from then on. -/
def resolve (resolver : Resolver) (name : Text) : Option Target × Resolver :=
  match resolver.answers.lookup name with
  | some answer => (answer, resolver)
  | none =>
    let answer := resolver.linker.resolve? name
    (answer, { resolver with answers := (name, answer) :: resolver.answers })

/-- What names refer to that are asked for one after the other, and what is known after them. -/
def resolveAll (resolver : Resolver) : List Text → List (Option Target) × Resolver
  | [] => ([], resolver)
  | name :: names =>
    let (answer, next) := resolver.resolve name
    let (answers, last) := next.resolveAll names
    (answer :: answers, last)

end Resolver

end CodeAtlas.Markup
