import GuardianshipAgency.Transactions.Network
import GuardianshipAgency.Transactions.World
import GuardianshipAgency.Wire.Messages

/-!
# Messages as they are read

What a message was made of is what its content says.
-/

namespace GuardianshipAgency.Transactions

open Js

/-! ## Exact parts -/

theorem exact_field {v : Json} (hv : v.Exact) {key : String} {x : Json} (h : Json.field (some v) key = some x) :
    x.Exact := by
  cases v with
  | obj kvs =>
      obtain ⟨kv, hkv, rfl⟩ := Option.map_eq_some_iff.mp h
      exact (Json.exact_obj.mp hv).2 kv (List.mem_of_find?_eq_some hkv)
  | null => cases h
  | bool b => cases h
  | num q => cases h
  | str s => cases h
  | arr xs => cases h

theorem map_shown_field {v : Json} (hv : v.Exact) (key : String) :
    (Json.field (some v) key).map Json.shown = Json.field (some v) key := by
  cases h : Json.field (some v) key with
  | none => rfl
  | some x => rw [Option.map_some, Json.shown_of_exact (exact_field hv h)]

/-- A field of a field that may be missing. -/
theorem exact_column_field {v : Option Json} (hv : ∀ x, v = some x → x.Exact) (key : String) :
    (column (Json.field v key)).Exact := by
  cases h : Json.field v key with
  | none => exact Json.exact_null
  | some x =>
      cases v with
      | none => cases h
      | some v => exact exact_field (hv v rfl) h

/-! ## Fields of a message -/

theorem ReplyMessage.nodup_init (msg : ReplyMessage) : (msg.init.map Prod.fst).Nodup := by
  cases msg <;> simp [init]

theorem content_parse (classes : MessageClasses) (msg : ReplyMessage) :
    ∃ reply, Json.parse (msg.content classes) = .ok reply ∧
      ∀ k v, (k, v) ∈ msg.init → Json.field (some reply) k = v.map Json.shown := by
  refine ⟨_, Json.parse_stringify _, fun k v hkv => ?_⟩
  exact Json.field_shown_ofFields ((msg.messageClass classes).nodup _ msg.nodup_init)
    ((msg.messageClass classes).given _ _ hkv)

theorem ReplyMessage.state_init (msg : ReplyMessage) : ("state", some (.str msg.state.text)) ∈ msg.init := by
  cases msg with
  | creditTransaction state id transaction => exact .head _
  | transactionReportRequest state id tdcFspId transactions => exact .tail _ (.head _)

theorem content_keepsState (classes : MessageClasses) : KeepsState (ReplyMessage.content classes) := by
  intro msg data hdata
  obtain ⟨reply, hreply, hfields⟩ := content_parse classes msg
  rw [hreply] at hdata
  cases hdata
  exact hfields _ _ msg.state_init

/-! ## Records of a report -/

structure TxReportResponseDto.Exact (rec : TxReportResponseDto) : Prop where
  order : (Json.num rec.order).Exact
  transactionId : rec.transactionId.Exact
  typeId : rec.typeId.Exact
  subjectId : rec.subjectId.Exact
  txDate : rec.txDate.Exact
  amount : rec.amount.Exact
  credentialId : rec.credentialId.Exact
  hash : rec.hash.Exact
  details : rec.details.Exact

theorem exact_order {order : Int} (hpos : 1 ≤ order) (hfits : order ≤ 2147483647) : (Json.num order).Exact := by
  refine ⟨⟨0, by simp⟩, decide_eq_true ?_⟩
  have hlarge : (2147483647 : ℚ) < Json.overflow := by decide +kernel
  have hpos' : (1 : ℚ) ≤ order := by exact_mod_cast hpos
  have hfits' : (order : ℚ) ≤ 2147483647 := by exact_mod_cast hfits
  constructor
  · linarith
  · linarith

theorem TxReportResponseDto.Exact.json {rec : TxReportResponseDto} (h : rec.Exact) : rec.json.Exact := by
  refine Json.exact_obj.mpr ⟨by simp [fields], fun kv hkv => ?_⟩
  simp only [fields, List.mem_cons, List.not_mem_nil, or_false] at hkv
  rcases hkv with rfl | rfl | rfl | rfl | rfl | rfl | rfl | rfl | rfl
  exacts [h.order, h.transactionId, h.typeId, h.subjectId, h.txDate, h.amount, h.credentialId, h.hash, h.details]

theorem parse_records {recs : List TxReportResponseDto} (h : ∀ rec ∈ recs, rec.Exact) :
    Json.parse (ReportData.records recs).text = .ok (.arr (recs.map TxReportResponseDto.json)) := by
  refine Json.parse_stringify_of_exact (Json.exact_arr fun x hx => ?_)
  obtain ⟨rec, hrec, rfl⟩ := List.mem_map.mp hx
  exact (h rec hrec).json

end GuardianshipAgency.Transactions
