import RespGateway.Proofs.Ascii
import RespGateway.Proofs.Rest

/-!
# What is written are replies

A reply on the wire is one line, or a line with a length and as many bytes. Statuses and
errors are written as they stand, so their text must not hold a carriage return or a line
feed. Of all that a plain gateway writes, one thing does not keep to that: the error for
a request whose name no command has echoes the first bytes of that name.
`refusal_wellFormed_iff` says for which requests the error is a reply, and
`sent_wellFormed_iff` that all else that a client receives is.
-/

namespace RespGateway

/-! ## Lines -/

/-- The bytes hold no carriage return and no line feed. -/
def Bytes.OneLine (s : Bytes) : Prop := ∀ b ∈ s, b ≠ 13 ∧ b ≠ 10

instance (s : Bytes) : Decidable s.OneLine :=
  inferInstanceAs (Decidable (∀ b ∈ s, b ≠ 13 ∧ b ≠ 10))

/-- The wire form of one reply. -/
inductive Reply.WellFormed : Bytes → Prop where
  | simple {text : Bytes} : text.OneLine → WellFormed (line 43 text)
  | error {text : Bytes} : text.OneLine → WellFormed (line 45 text)
  | integer (n : Int) : WellFormed (line 58 (Text.Decimal.ofInt n))
  | bulk (data : Bytes) :
      WellFormed (line 36 (Text.Decimal.ofNat data.length) ++ data ++ Bytes.crlf)
  | nil : WellFormed (line 36 [45, 49])

theorem oneLine_append (s t : Bytes) : (s ++ t).OneLine ↔ s.OneLine ∧ t.OneLine := by
  simp only [Bytes.OneLine, List.mem_append, or_imp, forall_and]
  tauto

/-- A text that is written on one line. -/
def Text.OneLine (text : String) : Prop := (Text.Utf8.ofString text).OneLine

theorem oneLine_text_append (s t : String) :
    Text.OneLine (s ++ t) ↔ Text.OneLine s ∧ Text.OneLine t := by
  rw [Text.OneLine, Text.Utf8.ofString_append, oneLine_append]
  rfl

/-- Digits and what else is neither a carriage return nor a line feed stay on the line. -/
theorem oneLine_of_chars {text : String} (h : ∀ c ∈ text.toList, 13 < c.toNat) :
    Text.OneLine text := by
  intro b hb
  have hlow : ∀ b' : UInt8, b'.toNat ≤ 13 → b ≠ b' := by
    rintro b' hb' rfl
    obtain ⟨c, hc, heq⟩ := (Text.Utf8.mem_encode (by omega) text.toList).mp hb
    have := h c hc
    omega
  exact ⟨hlow 13 (by decide), hlow 10 (by decide)⟩

/-- A text that is written out stays on the line if its characters do. -/
theorem oneLine_chars {chars : List Char} (h : (chars.all fun c => 13 < c.toNat) = true) :
    Text.OneLine (String.ofList chars) := by
  refine oneLine_of_chars fun c hc => ?_
  rw [String.toList_ofList] at hc
  simpa using List.all_eq_true.mp h c hc

theorem oneLine_nat (n : Nat) : Text.OneLine (toString n) := by
  refine oneLine_of_chars fun c hc => ?_
  rw [Nat.toString_eq_repr, Nat.toList_repr] at hc
  have hdigit := Nat.isDigit_of_mem_toDigits (by decide) (by decide) hc
  simp only [Char.isDigit, Bool.and_eq_true, decide_eq_true_eq] at hdigit
  have : 48 ≤ c.toNat := hdigit.1
  omega

theorem oneLine_int (n : Int) : Text.OneLine (toString n) := by
  cases n with
  | ofNat n => exact oneLine_nat n
  | negSucc n => exact (oneLine_text_append "-" _).mpr ⟨oneLine_chars rfl, oneLine_nat (n + 1)⟩

theorem oneLine_hexByte (b : UInt8) : Text.OneLine (Request.hexByte b) := by
  have hdigits : ∀ n < 16, 13 < (Nat.digitChar n).toNat := by decide
  have hb := b.toNat_lt
  refine oneLine_of_chars fun c hc => ?_
  rw [Request.hexByte, String.toList_ofList] at hc
  rcases List.mem_cons.mp hc with rfl | hc
  · exact hdigits _ (by omega)
  · rw [List.mem_singleton.mp hc]
    exact hdigits _ (by omega)

/-! ## Replies -/

theorem crlf_append_inj {s t : Bytes} {first first' : UInt8}
    (h : Reply.line first s = Reply.line first' t) : first = first' ∧ s = t := by
  rw [Reply.line, Reply.line] at h
  exact ⟨(List.cons.inj h).1, List.append_cancel_right (List.cons.inj h).2⟩

/-- An error is written as a reply exactly if its text stays on the line. -/
theorem wellFormed_error_iff (text : String) :
    Reply.WellFormed (Reply.error text).encode ↔ Text.OneLine text := by
  constructor
  · intro h
    generalize hwire : (Reply.error text).encode = written at h
    have hline : ∀ (first : UInt8) (rest : Bytes), first ≠ 45 →
        (Reply.error text).encode ≠ first :: rest := by
      intro first rest hne heq
      exact hne (List.cons.inj heq).1.symm
    cases h with
    | simple _ => exact absurd hwire (hline 43 _ (by decide))
    | error htext => rwa [← (crlf_append_inj hwire).2] at htext
    | integer n => exact absurd hwire (hline 58 _ (by decide))
    | bulk data => exact absurd hwire (hline 36 _ (by decide))
    | nil => exact absurd hwire (hline 36 _ (by decide))
  · intro h
    exact .error h

theorem wellFormed_generic {text : String} (h : Text.OneLine text) :
    Reply.WellFormed (Reply.generic text).encode :=
  (wellFormed_error_iff _).mpr ((oneLine_text_append _ _).mpr ⟨oneLine_chars rfl, h⟩)

/-- What is told of a request that is no command. -/
theorem oneLine_fault (fault : Request.Fault) : Text.OneLine fault.message := by
  cases fault with
  | integer why =>
      refine (oneLine_text_append _ _).mpr ⟨oneLine_chars rfl, ?_⟩
      cases why <;> exact oneLine_chars rfl
  | utf8 why =>
      refine (oneLine_text_append _ _).mpr ⟨oneLine_chars rfl, ?_⟩
      cases why with
      | invalid length index =>
          refine (oneLine_text_append _ _).mpr ⟨?_, oneLine_nat index⟩
          refine (oneLine_text_append _ _).mpr ⟨?_, oneLine_chars rfl⟩
          exact (oneLine_text_append _ _).mpr ⟨oneLine_chars rfl, oneLine_nat length⟩
      | incomplete index =>
          exact (oneLine_text_append _ _).mpr ⟨oneLine_chars rfl, oneLine_nat index⟩
  | bulkLength length => exact (oneLine_text_append _ _).mpr ⟨oneLine_chars rfl, oneLine_int length⟩
  | arrayLength count => exact (oneLine_text_append _ _).mpr ⟨oneLine_chars rfl, oneLine_int count⟩
  | unexpectedElement byte =>
      exact (oneLine_text_append _ _).mpr ⟨oneLine_chars rfl, oneLine_hexByte byte⟩
  | unterminatedBulk => exact oneLine_chars rfl
  | emptyInline => exact oneLine_chars rfl
  | tooLarge size limit =>
      refine (oneLine_text_append _ _).mpr ⟨?_, oneLine_chars rfl⟩
      refine (oneLine_text_append _ _).mpr ⟨?_, oneLine_nat limit⟩
      refine (oneLine_text_append _ _).mpr ⟨?_, oneLine_chars rfl⟩
      exact (oneLine_text_append _ _).mpr ⟨oneLine_chars rfl, oneLine_nat size⟩

/-- The error that ends a connection is a reply. -/
theorem wellFormed_farewell {why : Departure} {r : Reply} (h : why.told = some r) :
    Reply.WellFormed r.encode := by
  obtain ⟨trouble, -, htrouble⟩ := Option.bind_eq_some_iff.mp h
  cases trouble with
  | malformed fault =>
      cases htrouble
      refine wellFormed_generic ((oneLine_text_append _ _).mpr ⟨oneLine_chars rfl, ?_⟩)
      exact oneLine_fault fault
  | oversized =>
      cases htrouble
      exact wellFormed_generic (oneLine_chars rfl)
  | cutShort => cases htrouble
  | reset => cases htrouble

/-! ## Refusals -/

/-- The part of a request's name that an error would echo holds a carriage return or a line feed. -/
def breaksLine (arguments : List Bytes) : Bool :=
  ((arguments.headD []).take Exchange.maxEchoed).any fun b => b == 13 || b == 10

theorem breaksLine_iff (arguments : List Bytes) :
    breaksLine arguments = false ↔
      Bytes.OneLine ((arguments.headD []).take Exchange.maxEchoed) := by
  simp [breaksLine, Bytes.OneLine]

theorem oneLine_command (command : Command) : Text.OneLine command.name := by
  cases command <;> exact oneLine_chars rfl

/-- The name of a command stays on the line, in any mix of upper and lower case. -/
theorem oneLine_of_known {name : Bytes} {command : Command}
    (h : Command.ofName? name = some command) : name.OneLine := by
  have hname : Text.Utf8.ofString command.name = name.map Command.upper := by
    simpa using List.find?_some h
  intro b hb
  have hupper : Command.upper b ∈ Text.Utf8.ofString command.name := by
    rw [hname]
    exact List.mem_map_of_mem hb
  have hline := oneLine_command command _ hupper
  constructor
  · rintro rfl
    exact hline.1 rfl
  · rintro rfl
    exact hline.2 rfl

theorem not_breaksLine_of_ok {client : UInt64} {arguments : List Bytes} {x : Exchange}
    (h : Exchange.decode client arguments = .ok x) : breaksLine arguments = false := by
  obtain ⟨-, -, name, rfl, hname, -⟩ := Exchange.decode_ok h
  refine (breaksLine_iff _).mpr fun b hb => ?_
  exact oneLine_of_known hname b (List.mem_of_mem_take hb)

theorem oneLine_echoed (name : Bytes) :
    Text.OneLine (Exchange.echoed name) ↔ Bytes.OneLine (name.take Exchange.maxEchoed) := by
  simp only [Text.OneLine, Bytes.OneLine, Exchange.echoed, Text.Utf8.ofString,
    String.toList_ofList]
  have h13 := Text.Utf8.mem_encode_lossy (b := 13) (by decide) (by decide)
    (name.take Exchange.maxEchoed)
  have h10 := Text.Utf8.mem_encode_lossy (b := 10) (by decide) (by decide)
    (name.take Exchange.maxEchoed)
  constructor
  · intro h b hb
    constructor
    · rintro rfl
      exact (h 13 (h13.mpr hb)).1 rfl
    · rintro rfl
      exact (h 10 (h10.mpr hb)).2 rfl
  · intro h b hb
    constructor
    · rintro rfl
      exact (h 13 (h13.mp hb)).1 rfl
    · rintro rfl
      exact (h 10 (h10.mp hb)).2 rfl

/-- **The error for a refused request is a reply exactly if what it echoes stays on the line.** -/
theorem refusal_wellFormed_iff {client : UInt64} {arguments : List Bytes}
    {why : Exchange.Refusal} (h : Exchange.decode client arguments = .error why) :
    Reply.WellFormed why.reply.encode ↔ breaksLine arguments = false := by
  refine (wellFormed_error_iff _).trans (Iff.trans ?_ (breaksLine_iff arguments).symm)
  have hunknown : ∀ shown, Text.OneLine (Exchange.Refusal.unknownCommand shown).message ↔
      Text.OneLine shown := by
    intro shown
    have hbefore : Text.OneLine "ERR unknown command '" := oneLine_chars rfl
    have hbehind : Text.OneLine "'" := oneLine_chars rfl
    change Text.OneLine ("ERR unknown command '" ++ shown ++ "'") ↔ Text.OneLine shown
    rw [oneLine_text_append, oneLine_text_append, and_assoc]
    rw [and_iff_right hbefore, and_iff_left hbehind]
  cases arguments with
  | nil =>
      cases h
      rw [hunknown]
      exact iff_of_true (oneLine_chars rfl) (by simp [Bytes.OneLine])
  | cons name args =>
      simp only [Exchange.decode] at h
      cases hname : Command.ofName? name with
      | none =>
          simp only [hname] at h
          cases h
          rw [hunknown, oneLine_echoed]
          rfl
      | some command =>
          simp only [hname] at h
          split at h
          · cases h
          · cases h
            refine iff_of_true ?_ fun b hb => oneLine_of_known hname b (List.mem_of_mem_take hb)
            refine (oneLine_text_append _ _).mpr ⟨?_, oneLine_chars rfl⟩
            exact (oneLine_text_append _ _).mpr ⟨oneLine_chars rfl, oneLine_command command⟩

/-! ## Replies to commands -/

theorem wellFormed_answer (answer : Cache.Answer) (command : Command) :
    Reply.WellFormed (answer.reply command).encode := by
  unfold Cache.Answer.reply
  split
  · exact wellFormed_generic (oneLine_chars rfl)
  · exact wellFormed_generic (oneLine_chars rfl)
  · rename_i framing _ _
    unfold Framing.reply
    split
    · exact .nil
    · exact .bulk _
    · exact .bulk _
    · exact .simple (oneLine_chars rfl)
    · exact .integer _
    · exact wellFormed_generic (oneLine_chars rfl)

theorem wellFormed_connectionReply {x : Exchange} {r : Reply}
    (h : Handler.connectionReply x = .ok r) : Reply.WellFormed r.encode := by
  unfold Handler.connectionReply at h
  split at h <;> cases h
  · exact .simple (oneLine_chars rfl)
  · exact .bulk _
  · exact .bulk _
  · exact .simple (oneLine_chars rfl)

/-- What is told of a failed operation is a reply. -/
theorem wellFormed_operation {text : String}
    (h : text = Reply.operationError ∨ text = Reply.operationTimedOut) :
    Reply.WellFormed (Reply.generic text).encode := by
  rcases h with rfl | rfl
  · exact wellFormed_generic (oneLine_chars rfl)
  · exact wellFormed_generic (oneLine_chars rfl)

namespace Gateway.Plain

variable {g : Gateway} {ticket : Nat} {x y : Exchange} {moment : Moment} {landing : Landing}
  {s s' : Store}

theorem wellFormed_handler
    (h : (g.launchHandler .connection ticket x).outcome = some (moment, landing))
    (hland : landing.land s = (.ok y, s')) :
    ∃ r, y.response = some r ∧ Reply.WellFormed r.encode := by
  obtain ⟨ending, hends, hreturned⟩ := connection_ends ticket x
  unfold Gateway.launchHandler at h
  split at h
  · cases h
    cases hland
    exact ⟨_, rfl, wellFormed_operation (Or.inr rfl)⟩
  · cases h
    cases hland
    exact ⟨_, rfl, wellFormed_operation (Or.inr rfl)⟩
  · rename_i after ending' hcourse
    rw [hends] at hcourse
    cases course_ended hcourse
    cases h
    cases hland
    cases ending with
    | returned y =>
        obtain ⟨r, hr, rfl⟩ := hreturned y rfl
        exact ⟨r, rfl, wellFormed_connectionReply hr⟩
    | failed why => exact ⟨_, rfl, wellFormed_operation (Or.inl rfl)⟩
    | crashed text => exact ⟨_, rfl, wellFormed_operation (Or.inl rfl)⟩
  · cases h

theorem wellFormed_query (hplain : g.Plain) (hopen : x.response = none) {q : Cache.Query}
    (h : (g.launchQuery q ticket x).outcome = some (moment, landing))
    (hland : landing.land s = (.ok y, s')) :
    ∃ r, y.response = some r ∧ Reply.WellFormed r.encode := by
  have hanswer : ∀ r s₁, Reply.WellFormed r.encode → (x.respond r, s₁) = (.ok y, s') →
      ∃ r, y.response = some r ∧ Reply.WellFormed r.encode := by
    intro r s₁ hr heq
    rw [respond_of_none hopen] at heq
    cases heq
    exact ⟨r, rfl, hr⟩
  unfold Gateway.launchQuery at h
  rw [hplain.backend] at h
  split at h
  · cases h
    exact hanswer _ _ (wellFormed_operation (Or.inr rfl)) hland
  · cases h
    exact hanswer _ _ (wellFormed_operation (Or.inr rfl)) hland
  · rename_i after ending hcourse
    cases course_ended hcourse
    cases h
    exact hanswer _ _ (wellFormed_answer _ _) hland
  · cases h

/-- **A plain gateway answers every command with a reply.** -/
theorem wellFormed_reply (hplain : g.Plain) {t : Taken} (hopen : t.exchange.response = none)
    (h : (Delivery.reply t y).Comes g s s') :
    ∃ r, y.response = some r ∧ Reply.WellFormed r.encode := by
  cases h with
  | reply hlaunch hland =>
      unfold Gateway.launch at hlaunch
      split at hlaunch
      · rename_i handler hroute
        obtain rfl := hplain.lookup_some hroute
        exact wellFormed_handler hlaunch hland
      · split at hlaunch
        · exact hplain.wellFormed_query hopen hlaunch hland
        · cases hlaunch
          rw [Landing.land, respond_of_none hopen] at hland
          cases hland
          exact ⟨_, rfl, wellFormed_generic (oneLine_chars rfl)⟩

end Gateway.Plain

/-! ## What a client receives -/

namespace Standing

variable {g : Gateway} {o : Connection.Options} {arrived : List Arrival} {taken : List Taken}
  {put : List Delivery} {c : Connection} {past : List (List Bytes)} {underway : List Taken}

theorem farewells_le_one (h : Standing g o arrived taken put c past underway) :
    (put.filterMap Delivery.farewell?).length ≤ 1 := by
  rw [h.told]
  cases c.reader with
  | finished why => cases htold : why.told <;> simp [Reader.told, htold]
  | _ => simp [Reader.told]

/-- What is put out are replies but for the errors that echo an end of a line. -/
theorem wellFormed_iff (h : Standing g o arrived taken put c past underway) (hplain : g.Plain)
    {d : Delivery} (hd : d ∈ put) (hcomes : ∃ s s', d.Comes g s s') {requests : List (List Bytes)}
    (hpast : past ⊆ requests) :
    Reply.WellFormed d.item.content.encode ↔
      ¬∃ arguments ∈ requests, d.request? = some (Exchange.decode c.session arguments) ∧
        breaksLine arguments = true := by
  cases d with
  | refusal why =>
      obtain ⟨arguments, harguments, hdecode⟩ := h.request_heard hd rfl
      constructor
      · rintro hwell ⟨arguments', -, hrequest, hbreaks⟩
        have hwhy := (Option.some.inj hrequest).symm
        rw [(refusal_wellFormed_iff hwhy).mp hwell] at hbreaks
        cases hbreaks
      · intro hnone
        refine (refusal_wellFormed_iff hdecode).mpr ?_
        cases hbreaks : breaksLine arguments with
        | false => rfl
        | true => exact absurd ⟨arguments, hpast harguments, hdecode ▸ rfl, hbreaks⟩ hnone
  | reply t y =>
      obtain ⟨arguments, -, hdecode⟩ := h.request_heard hd rfl
      obtain ⟨s, s', hcomes⟩ := hcomes
      obtain ⟨r, hr, hwell⟩ := hplain.wellFormed_reply (Exchange.decode_ok hdecode).2.1 hcomes
      refine iff_of_true ?_ ?_
      · rw [Delivery.item, Outgoing.content, hr]
        exact hwell
      · rintro ⟨arguments', -, hrequest, hbreaks⟩
        have hok := (Option.some.inj hrequest).symm
        rw [not_breaksLine_of_ok hok] at hbreaks
        cases hbreaks
  | farewell r =>
      refine iff_of_true ?_ (by rintro ⟨arguments, -, hrequest, -⟩; cases hrequest)
      have hr : r ∈ c.reader.told := by
        rw [← h.told]
        exact List.mem_filterMap.mpr ⟨_, hd, rfl⟩
      cases hreader : c.reader with
      | finished why =>
          rw [hreader] at hr
          exact wellFormed_farewell (Option.mem_toList.mp hr)
      | _ => rw [hreader] at hr; cases hr

theorem sent_deliveries (h : Standing g o arrived taken put c past underway) :
    ∃ sent, sent <+: put ∧ c.writer.sent = sent.flatMap fun d => d.item.content.encode := by
  obtain ⟨flushed, hflushed, hsent⟩ := h.carried.sent_partly
  have htake := List.prefix_iff_eq_take.mp (hflushed.trans (prefix_untilLast _))
  refine ⟨put.take flushed.length, List.take_prefix _ _, ?_⟩
  rw [hsent, htake, ← List.map_take, wire, List.flatMap_map, List.length_map, List.length_take,
    List.take_eq_take_min]

end Standing

/-- What is put out for a client that has sent `requests`, and what of it the client receives. -/
structure Replied (o : Connection.Options) (requests : List (List Bytes)) (c : Connection)
    (put : List Delivery) : Prop where
  /-- The client receives what is put out, whole and in this order. -/
  sent : ∃ sent, sent <+: put ∧ c.writer.sent = sent.flatMap fun d => d.item.content.encode
  /-- Only requests are answered, and none twice. -/
  answers : ∃ waiting, (requests.map (Exchange.decode c.session)).Perm
    (put.filterMap Delivery.request? ++ waiting)
  /-- At most one error ends the connection, and in ordered mode nothing comes after it. -/
  farewell : ∃ farewells, put.filterMap Delivery.farewell? = farewells ∧ farewells.length ≤ 1 ∧
    (o.ordered = true → farewells.map Delivery.farewell <:+ put)
  /-- Each of them is a reply, unless it echoes a name that breaks the line. -/
  wellFormed : ∀ d ∈ put, Reply.WellFormed d.item.content.encode ↔
    ¬∃ arguments ∈ requests, d.request? = some (Exchange.decode c.session arguments) ∧
      breaksLine arguments = true

/-- **All that a client receives are replies, one for each request that is answered and at most one
that ends the connection, but for the errors that echo an end of a line.** This is so in both
modes, for all clients at once and in every order of moves. -/
theorem Server.sent_wellFormed_iff {g : Gateway} {o : Connection.Options} {store : Store}
    {run : List Happening} {s : Server} {i : Nat} {c : Connection} (hplain : g.Plain)
    (hrun : (start g o store).follow? run = some s) (hc : s.connections[i]? = some c) :
    ∃ put, Replied o (Transcript.ofArrivals o.maxBuffer [] (arrived run i)).requests c put := by
  obtain ⟨ledger, history, hbooks, hreplays⟩ := books_run hrun
  obtain ⟨-, past, underway, hst⟩ := hbooks.connections i c hc
  rw [hst.requests_now]
  refine ⟨putOut i history, hst.sent_deliveries, ?_, ?_, ?_⟩
  · refine ⟨underway.map (.ok ·.exchange) ++ c.reader.held ++
      (c.outlook o []).requests.map (Exchange.decode c.session), ?_⟩
    rw [List.map_append]
    have hopened := hst.opened.perm.append_right
      ((c.outlook o []).requests.map (Exchange.decode c.session))
    simpa only [List.append_assoc] using hopened
  · refine ⟨c.reader.told, hst.told, hst.told ▸ hst.farewells_le_one, ?_⟩
    intro ho
    obtain ⟨answers, -, hput⟩ := hst.parted ho
    rw [hput]
    exact List.suffix_append _ _
  · intro d hd
    exact hst.wellFormed_iff hplain hd (hreplays.comes (mem_putOut.mp hd))
      (List.subset_append_left _ _)

/-- A client asks for a command whose name breaks the line, and so does the error for it. -/
theorem Server.sent_wellFormed_iff_echo :
    ∃ run s c, (start { routes := .own } {} .fresh).follow? run = some s ∧
      s.connections[0]? = some c ∧
      arrived run 0 = [.bytes [42, 49, 13, 10, 36, 51, 13, 10, 65, 10, 66, 13, 10]] ∧
      c.writer.sent = [45, 69, 82, 82, 32, 117, 110, 107, 110, 111, 119, 110, 32, 99, 111, 109, 109,
        97, 110, 100, 32, 39, 65, 10, 66, 39, 13, 10] ∧
      ∃ put, Replied {} (Transcript.ofArrivals 65536 [] (arrived run 0)).requests c put :=
  ⟨[.accept, .receive 0 (.bytes [42, 49, 13, 10, 36, 51, 13, 10, 65, 10, 66, 13, 10]),
      .move (.reader 0), .move (.reader 0), .move (.writer 0), .move (.writer 0)],
    _, _, rfl, rfl, rfl, by decide +kernel,
    @sent_wellFormed_iff { routes := .own } {} .fresh _ _ _ _ ⟨rfl, rfl⟩ rfl rfl⟩

end RespGateway
