/-
# Defaults as bindings

A declared default comes in where a parameter has no binding. So it can be turned into a binding:
without its defaults, a configuration is compiled to the same statement, with the same parameters
left open, once the bindings are extended by the default of every declared parameter that they lack.
The check does not look at defaults either, so a configuration that is refused is refused both ways,
for the same reason.
-/

import RuleQuery.Proofs.Validity
import RuleQuery.Sql.Compile

namespace RuleQuery

/-- The declaration without its default. -/
def Parameter.withoutDefault (p : Parameter) : Parameter := { p with default := none }

namespace Configuration

/-- The configuration with every declared default removed. -/
def withoutDefaults (c : Configuration) : Configuration :=
  { c with parameters := c.parameters.mapValues Parameter.withoutDefault }

/-- The bindings, with the default of every declared parameter that they do not bind. -/
def bindDefaults (c : Configuration) (bindings : Bindings) : Bindings :=
  bindings.union (c.parameters.filterMapValues Parameter.default)

/-- The value of a parameter is what it is bound to once the defaults are bound. -/
theorem find?_bindDefaults (c : Configuration) (bindings : Bindings) (name : String) :
    (c.bindDefaults bindings).find? name = c.environment bindings name := by
  rw [bindDefaults, NameMap.find?_union, NameMap.find?_filterMapValues, environment]

/-- Without defaults, a parameter has the value that it is bound to. -/
theorem environment_withoutDefaults (c : Configuration) (bindings : Bindings) :
    c.withoutDefaults.environment bindings = bindings.find? := by
  funext name
  rw [environment, withoutDefaults, NameMap.find?_mapValues]
  cases c.parameters.find? name <;> simp [Parameter.withoutDefault]

/-- The check asks the declarations for their names only. -/
theorem validate_withoutDefaults (c : Configuration) : c.withoutDefaults.validate = c.validate := by
  have same : c.mapLiterals id = c := mapLiterals_of_fixed fun _ _ => rfl
  have keys := NameMap.keys_mapValues Parameter.withoutDefault c.parameters
  have checked := validate_mapLiterals (f := id) (fun _ => rfl) c keys
  rwa [same] at checked

/--
Removing the defaults and binding them instead changes nothing: not the outcome of the compilation,
and not the text in any single place of a literal. What a parameter is bound to already stays; it is
bound to its default otherwise. Nothing but the defaults is removed.
-/
theorem compile_withoutDefaults (c : Configuration) (settings : Settings) (bindings : Bindings) :
    c.withoutDefaults.compile settings (c.bindDefaults bindings) = c.compile settings bindings ∧
      (∀ l, Sql.literalText (c.withoutDefaults.environment (c.bindDefaults bindings)) l =
        Sql.literalText (c.environment bindings) l) ∧
      (∀ name, (c.bindDefaults bindings).find? name =
        (bindings.find? name).or ((c.parameters.find? name).bind Parameter.default)) ∧
      ∀ name, c.withoutDefaults.parameters.find? name =
        (c.parameters.find? name).map fun p => { p with default := none } := by
  have values : c.withoutDefaults.environment (c.bindDefaults bindings) =
      c.environment bindings := by
    rw [environment_withoutDefaults]
    funext name
    exact c.find?_bindDefaults bindings name
  have template : c.withoutDefaults.template settings.separator = c.template settings.separator :=
    rfl
  refine ⟨?_, fun l => by rw [values], c.find?_bindDefaults bindings, ?_⟩
  · rw [compile, compile, validate_withoutDefaults, values, template]
  · exact NameMap.find?_mapValues Parameter.withoutDefault c.parameters

end Configuration

end RuleQuery
