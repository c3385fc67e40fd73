import GuardianshipAgency.Transactions.Lemmas.Reports

/-!
# A ledger of transactions

What the table is for when deliveries are handled one after the other: a list of transactions that only grows, and from
which a report copies the part of its agent. Each entry is numbered by its place.
-/

namespace GuardianshipAgency.Transactions

open Js

/-- A started transaction with the delivery that brought it. -/
structure Entry where
  delivery : Delivery
  data : Json
deriving DecidableEq

namespace Ledger

/-- The entries of an agent, each with its place. -/
def part (es : List Entry) (agentId : String) : List (Entry × Nat) :=
  es.zipIdx.filter fun e => e.1.delivery.agentId == agentId

/-- The records are those of the agent's part, in any order. -/
def Lists (es : List Entry) (agentId : String) (recs : List TxReportResponseDto) : Prop :=
  ∃ recs', recs.Perm recs' ∧
    List.Forall₂ (fun (rec : TxReportResponseDto) (e : Entry × Nat) => rec.order = e.2 + 1 ∧ rec.Describes e.1.data)
      recs' (part es agentId)

/-- `Handles es d ms es'`: handling the delivery `d` issues the messages `ms` and turns the ledger `es` into `es'`. -/
inductive Handles (es : List Entry) (d : Delivery) : List SendMessage → List Entry → Prop where
  | ignored : Handles es d [] es
  | recorded {data : Json} {ms : List SendMessage} (hs : d.Starts .creditTransaction data)
      (hms : ∀ m ∈ ms, m = d.acceptedReply data) : Handles es d ms (es ++ [⟨d, data⟩])
  | reported {data : Json} {ms : List SendMessage} (hs : d.Starts .transactionRequest data)
      (hms : ∀ m ∈ ms, m = d.reportReply data .accepted .empty ∨
        ∃ recs, Lists es d.agentId recs ∧ m = d.reportReply data .completed (.records recs)) : Handles es d ms es

inductive Run : List Entry → List Delivery → List SendMessage → List Entry → Prop where
  | nil {es} : Run es [] [] es
  | cons {es d ms es₁ ds ms' es'} : Handles es d ms es₁ → Run es₁ ds ms' es' → Run es (d :: ds) (ms ++ ms') es'

/-- The rows are the entries in their order, numbered from 1. -/
def Represents (hash32 : Option Json → Except JsError String) (rows : List Row) (es : List Entry) : Prop :=
  List.Forall₂ (fun (row : Row) (e : Entry × Nat) => row.merkelOrder = e.2 + 1 ∧ row.Records e.1.delivery e.1.data ∧
    hash32 (Json.field (Json.field (some e.1.data) "transaction") "fspHash") = .ok row.merkelHash) rows es.zipIdx

/-! ## The ledger only grows -/

theorem Handles.appends {es es' : List Entry} {d : Delivery} {ms : List SendMessage} (h : Handles es d ms es') :
    ∃ new, es' = es ++ new ∧ (new.map Entry.delivery).Sublist [d] := by
  cases h with
  | ignored => exact ⟨[], (List.append_nil _).symm, List.nil_sublist _⟩
  | @recorded data _ hs hms => exact ⟨[⟨d, data⟩], rfl, .refl _⟩
  | reported hs hms => exact ⟨[], (List.append_nil _).symm, List.nil_sublist _⟩

theorem Run.appends {es es' : List Entry} {ds : List Delivery} {ms : List SendMessage} (h : Run es ds ms es') :
    ∃ new, es' = es ++ new ∧ (new.map Entry.delivery).Sublist ds := by
  induction h with
  | nil => exact ⟨[], (List.append_nil _).symm, List.nil_sublist _⟩
  | cons hd _ ih =>
      obtain ⟨new₁, rfl, hnew₁⟩ := hd.appends
      obtain ⟨new, rfl, hnew⟩ := ih
      refine ⟨new₁ ++ new, List.append_assoc _ _ _, ?_⟩
      rw [List.map_append]
      exact hnew₁.append hnew

end Ledger

end GuardianshipAgency.Transactions
