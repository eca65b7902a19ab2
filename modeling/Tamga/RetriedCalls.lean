import Tamga.ArtifactDownload
import Tamga.CheckOut
import Tamga.Library.Layering

namespace Tamga.RetriedCalls

open Library.ChunkedBody
open Library.Interaction
open Library.Interaction.Prog
open Library.Layering
open Library.Prelude
open Library.Serde
open Tamga.ApiErrors
open Tamga.ArtifactDownload
open Tamga.CheckOut
open Tamga.Client
open Tamga.Dependencies
open Tamga.RetryBounds
open Tamga.ServerResponses
open Tamga.Transport

section Repeats

variable {Op' : Type} {Reply' : Op' → Type} {α β E : Type}

variable {cl : Client} {own : Event Op' Reply' → Option cl.Exchange} {wrap : cl.Error → E}
  {request : Request} {p : Prog Op' Reply' (Except E α)}

end Repeats

section Requests

variable {cl : Client} {request : Request} {α β : Type} {read : Response → Except cl.Error α}

/-- Of the answers just a 429 is read as the error of one. -/
def Limits (read : Response → Except cl.Error α) : Prop :=
  ∀ response, (∃ wait info, read response = .error (.rateLimited wait info)) ↔
    response.status = tooManyRequests

theorem Limits.map (h : Limits read) (f : α → β) :
    Limits fun response => (read response).map f := by
  intro response
  rw [← h response]
  dsimp only
  cases read response with
  | ok value =>
      constructor
      · rintro ⟨_, _, ⟨⟩⟩
      · rintro ⟨_, _, ⟨⟩⟩
  | error e => simp only [Except.map, Except.error.injEq]

end Requests

section Parts

variable {cl : Client}

end Parts

section Calls

variable {cl : Client} {α : Type}

end Calls

end Tamga.RetriedCalls
