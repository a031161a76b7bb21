import Folio.Cache.Settings
import Folio.Proofs.Json.Apart
import Folio.Query.Result

/-!
# Cache keys of compiled queries

The rows of a query are kept under a key that ends in the compact text of the compiled query.
A key never stands for two queries, so the rows of one are not given out for another.
-/

namespace Folio

theorem Cache.Settings.key_some_inj {settings : Settings} {kind id other : String} :
    settings.key kind (some id) = settings.key kind (some other) ↔ id = other :=
  String.append_right_inj _

namespace Query.CompiledQuery

theorem encode_injective : Function.Injective encode := by
  rintro ⟨sql, params, errors⟩ ⟨sql', params', errors'⟩ h
  simp only [encode, Json.object.injEq, List.cons.injEq, Prod.mk.injEq, Json.string.injEq,
    Json.array.injEq, true_and, and_true] at h
  obtain ⟨rfl, rfl, herrors⟩ := h
  have hstring : Function.Injective Json.string := fun _ _ => Json.string.inj
  rw [List.map_injective_iff.mpr hstring herrors]

/-- Two compiled queries have one key only if they are one query: in text, in parameters with
their order, types and nesting, and in messages. -/
theorem key_eq_key_iff (settings : Cache.Settings) (first second : CompiledQuery) :
    settings.key "query" (some first.encode.toText) =
        settings.key "query" (some second.encode.toText) ↔
      first.sql = second.sql ∧ first.params = second.params ∧ first.errors = second.errors := by
  rw [Cache.Settings.key_some_inj, Json.toText_injective.eq_iff, encode_injective.eq_iff,
    CompiledQuery.mk.injEq]

end Query.CompiledQuery

end Folio
