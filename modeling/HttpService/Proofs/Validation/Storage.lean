import HttpService.Proofs.Declaration.Rereading
import HttpService.Proofs.Validation.Slots

/-!
# Services and declarations survive storage

A service can be checked once, written, and read again later (`ServiceDecl.restores_of_json`).
A text of a type exists only for a grammatical type, so the types are followed from the declaration
that was read to the service: the parameters keep theirs, and the result is stored with its type,
with the type inside `Result`, or without one.
-/

namespace HttpService

open Json

theorem TypeExpr.Grammatical.returnShape {t : TypeExpr} (h : t.Grammatical)
    (serializable : List String) : (t.returnShape serializable).1.Grammatical := by
  unfold TypeExpr.returnShape
  split
  · split
    · next argument hargument =>
      split
      · exact trivial
      · exact h.argument (by rw [hargument]; exact List.mem_singleton_self argument)
    · exact h
  · exact h

theorem Endpoint.Grammatical.of_endpoint? {serializable : List String} {f : FunctionDecl}
    {e : Endpoint} (hf : f.Grammatical) (h : f.endpoint? serializable = some e) :
    e.Grammatical := by
  obtain ⟨-, method, url, -, -, rfl⟩ := FunctionDecl.endpoint?_eq_some_iff.mp h
  constructor
  · intro p hp
    obtain ⟨declared, hdeclared, rfl⟩ := List.mem_map.mp hp
    exact hf.parameters declared hdeclared
  · exact hf.returnType.returnShape serializable

theorem Service.Grammatical.of_analyze {s : ServiceDecl} {service : Service}
    (hs : s.Grammatical) (h : s.analyze.service = some service) : service.Grammatical := by
  obtain ⟨-, rfl⟩ := ServiceDecl.service_eq_some_iff.mp h
  intro e he
  obtain ⟨f, hf, hendpoint⟩ := List.mem_filterMap.mp he
  exact .of_endpoint? (hs f hf) hendpoint

/-- **A declaration that was read is restored after it was written, and so is the service that is
made of it.** -/
theorem ServiceDecl.restores_of_json {j : Json} {s : ServiceDecl}
    (h : ServiceDecl.ofJson? j = some s) :
    Restores ServiceDecl.toJson ServiceDecl.ofJson? ServiceDecl.outline s ∧
      ∀ service, s.analyze.service = some service →
        Restores Service.toJson Service.ofJson? .whole service := by
  have hs : s.Grammatical := .of_ofJson? h
  refine ⟨(ServiceDecl.kept hs).restores (by decide), fun service hservice => ?_⟩
  exact (Service.kept (.of_analyze hs hservice)).restores (by decide)

theorem ServiceDecl.restores_of_json_upload :
    ServiceDecl.ofJson? uploadService.toJson = some uploadService ∧
      uploadService.analyze.service = some ⟨"SClient", "S", [uploadEndpoint]⟩ ∧
      Restores ServiceDecl.toJson ServiceDecl.ofJson? ServiceDecl.outline uploadService ∧
      Restores Service.toJson Service.ofJson? .whole ⟨"SClient", "S", [uploadEndpoint]⟩ := by
  have hread : ServiceDecl.ofJson? uploadService.toJson = some uploadService := by
    decide +kernel
  have hservice : uploadService.analyze.service = some ⟨"SClient", "S", [uploadEndpoint]⟩ := by
    decide +kernel
  have h := restores_of_json hread
  exact ⟨hread, hservice, h.1, h.2 _ hservice⟩

end HttpService
