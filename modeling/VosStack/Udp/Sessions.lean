import VosStack.Table.Index
import VosStack.Udp.Acceptor

/-!
# Sessions of the UDP acceptor

Over every run, with `Disconnect` and `OpenWithSink` calls at any moment: a datagram is received by
the transport of its source, exactly once if that transport is open; transports are made only
where there is none, and announced once, before they receive anything; and no two undisconnected
transports of an acceptor have the same peer.

The table is searched and changed by address. That this is enough rests on one fact: the table
holds a transport exactly while it is not disconnected (`Tabled`). `RemoveTransport` erases the
entry of an address whatever transport it holds, and the destructor of an old transport may run
when its peer has a new one; but the handle is then `-1`, and the call is not made.

What was received is a matter of the log alone (`Logged`), and is proved for the four things that
happen to a datagram: it arrives, a transport is made for it, it is received, it is dropped.
-/

namespace VosStack.Udp

open Transition Table

/-! ### The contract -/

/-- The event is an `OnReceive` for the datagram `n`. -/
def Event.isReceive (n : ℕ) : Event → Bool
  | .receive _ m _ => m == n
  | _ => false

/-- The transport `i` was made for the source of the datagram. -/
def World.MadeFor (w : World) (i : ℕ) (a : Arrival) : Prop :=
  ∃ t, w.transports i = some t ∧ t.acceptor = some a.acceptor ∧ t.addrSend = a.addrRecv

structure SessionsOk (w : World) : Prop where
  /-- no two undisconnected transports have the same peer -/
  unique : ∀ acc addr i j, w.undisconnected acc addr i → w.undisconnected acc addr j → i = j
  /-- a datagram is received by the transport made for its source -/
  source : ∀ i n data, .receive i n data ∈ w.log →
    ∃ a, w.arrivals[n]? = some a ∧ w.MadeFor i a ∧ data = a.data.take bufLen
  /-- it is received at most once -/
  once : ∀ n, (w.log.filter (Event.isReceive n)).length ≤ 1
  /-- if there was an open transport for its source, it is received by that one -/
  delivered : ∀ n a i, w.arrivals[n]? = some a → i ∈ a.opened →
    w.log.filter (Event.isReceive n) = [.receive i n (a.data.take bufLen)]
  /-- also if the transport was made for it, and opened in `OnConnectIndication` -/
  welcomed : ∀ i n, .handled i n true ∈ w.log → ∃ data, .receive i n data ∈ w.log
  /-- every transport is made for a datagram, when there was no transport for its source -/
  created : ∀ i, (w.transports i).isSome → ∃ n a, .create i n ∈ w.log ∧
    w.arrivals[n]? = some a ∧ w.MadeFor i a ∧ a.live = []
  /-- and announced once -/
  indicated : ∀ i, (w.transports i).isSome → w.log.count (.indication i) = 1
  /-- before it receives anything -/
  before : ∀ k i n data, w.log[k]? = some (.receive i n data) → .indication i ∈ w.log.take k

/-! ### The log -/

/-- What a transport was made for. -/
def World.peer (w : World) : ℕ → Option (Option ℕ × InetAddr) :=
  Option.map (fun t => (t.acceptor, t.addrSend)) ∘ w.transports

/-- What the log says. `pending` is the datagram in `szBuf`. -/
structure Logged (peer : ℕ → Option (Option ℕ × InetAddr)) (arrivals : List Arrival)
    (log : List Event) (pending : Option ℕ) : Prop where
  source : ∀ i n data, .receive i n data ∈ log → ∃ a, arrivals[n]? = some a ∧
    peer i = some (some a.acceptor, a.addrRecv) ∧ data = a.data.take bufLen
  once : ∀ n, (log.filter (Event.isReceive n)).length ≤ 1
  waiting : ∀ n, pending = some n → log.filter (Event.isReceive n) = []
  delivered : ∀ n a i, arrivals[n]? = some a → pending ≠ some n → i ∈ a.opened →
    log.filter (Event.isReceive n) = [.receive i n (a.data.take bufLen)]
  welcomed : ∀ i n, .handled i n true ∈ log → ∃ data, .receive i n data ∈ log
  created : ∀ i, (peer i).isSome → ∃ n a, .create i n ∈ log ∧ arrivals[n]? = some a ∧
    peer i = some (some a.acceptor, a.addrRecv) ∧ a.live = []
  indicated : ∀ i, log.count (.indication i) = if (peer i).isSome then 1 else 0
  before : ∀ k i n data, log[k]? = some (.receive i n data) → .indication i ∈ log.take k

namespace Logged

variable {peer : ℕ → Option (Option ℕ × InetAddr)} {arrivals : List Arrival} {log : List Event}

private theorem getElem?_snoc {a b : Arrival} {n : ℕ} (h : arrivals[n]? = some a) :
    (arrivals ++ [b])[n]? = some a := by
  rw [List.getElem?_append_left (List.getElem?_eq_some_iff.mp h).1, h]

theorem nil : Logged (fun _ => none) [] [] none where
  source _ _ _ h := absurd h List.not_mem_nil
  once _ := Nat.zero_le 1
  waiting _ _ := rfl
  delivered _ _ _ h := absurd h nofun
  welcomed _ _ h := absurd h List.not_mem_nil
  created _ h := absurd h nofun
  indicated _ := rfl
  before _ _ _ _ h := absurd h nofun

/-- A datagram arrives. -/
theorem arrive (h : Logged peer arrivals log none) (a : Arrival) :
    Logged peer (arrivals ++ [a]) log (some arrivals.length) where
  source i n data hmem := by
    obtain ⟨b, hb, hrest⟩ := h.source i n data hmem
    exact ⟨b, getElem?_snoc hb, hrest⟩
  once := h.once
  waiting n hn := by
    obtain rfl := Option.some.inj hn
    -- an entry with this number would be about a datagram that had not arrived yet
    refine List.filter_eq_nil_iff.mpr fun e he hrec => ?_
    cases e with
    | receive i m data =>
      obtain rfl : m = arrivals.length := beq_iff_eq.mp hrec
      obtain ⟨b, hb, -⟩ := h.source i _ data he
      exact Nat.lt_irrefl _ (List.getElem?_eq_some_iff.mp hb).1
    | create | indication | handled => exact Bool.false_ne_true hrec
  delivered n b i hb hne hi := by
    have hlt : n < arrivals.length := by
      have hlt := (List.getElem?_eq_some_iff.mp hb).1
      have hne : n ≠ arrivals.length := fun heq => hne (congrArg some heq.symm)
      rw [List.length_append, List.length_singleton] at hlt
      omega
    rw [List.getElem?_append_left hlt] at hb
    exact h.delivered n b i hb nofun hi
  welcomed := h.welcomed
  created i hi := by
    obtain ⟨n, b, hmem, hb, hrest⟩ := h.created i hi
    exact ⟨n, b, hmem, getElem?_snoc hb, hrest⟩
  indicated := h.indicated
  before := h.before

private theorem before_append {pending : Option ℕ} (h : Logged peer arrivals log pending)
    {l : List Event} (hl : ∀ i n data, .receive i n data ∈ l → .indication i ∈ log)
    (k i n : ℕ) (data : Bytes) (hk : (log ++ l)[k]? = some (.receive i n data)) :
    .indication i ∈ (log ++ l).take k := by
  by_cases hlt : k < log.length
  · rw [List.getElem?_append_left hlt] at hk
    rw [List.take_append_of_le_length (Nat.le_of_lt hlt)]
    exact h.before k i n data hk
  · rw [List.getElem?_append_right (Nat.not_lt.mp hlt)] at hk
    rw [List.take_append, List.take_of_length_le (Nat.not_lt.mp hlt)]
    exact List.mem_append_left _ (hl i n data (List.mem_of_getElem? hk))

/-- Entries that are no `OnReceive` for the datagram `n`. -/
private theorem filter_append_of_not {n : ℕ} {l : List Event}
    (hl : ∀ e ∈ l, e.isReceive n = false) :
    (log ++ l).filter (Event.isReceive n) = log.filter (Event.isReceive n) := by
  have hnil : l.filter (Event.isReceive n) = [] :=
    List.filter_eq_nil_iff.mpr fun e he => Bool.eq_false_iff.mp (hl e he)
  rw [List.filter_append, hnil, List.append_nil]

/-- Entries that are no end of a new transport's first datagram. -/
private theorem welcomed_append {pending : Option ℕ} (h : Logged peer arrivals log pending)
    {l : List Event} (hl : ∀ i n, .handled i n true ∉ l) (i n : ℕ)
    (hmem : .handled i n true ∈ log ++ l) : ∃ data, .receive i n data ∈ log ++ l := by
  obtain ⟨data, hrec⟩ := h.welcomed i n ((List.mem_append.mp hmem).resolve_right (hl i n))
  exact ⟨data, List.mem_append_left _ hrec⟩

private theorem created_append {pending : Option ℕ} (h : Logged peer arrivals log pending)
    (l : List Event) (i : ℕ) (hi : (peer i).isSome) :
    ∃ n a, .create i n ∈ log ++ l ∧ arrivals[n]? = some a ∧
      peer i = some (some a.acceptor, a.addrRecv) ∧ a.live = [] := by
  obtain ⟨n, a, hmem, hrest⟩ := h.created i hi
  exact ⟨n, a, List.mem_append_left _ hmem, hrest⟩

/-- A transport is made for the datagram, and announced. -/
theorem create {n i : ℕ} {a : Arrival} (h : Logged peer arrivals log (some n))
    (ha : arrivals[n]? = some a) (hlive : a.live = []) (hnew : peer i = none) :
    Logged (Function.update peer i (some (some a.acceptor, a.addrRecv))) arrivals
      (log ++ [.create i n, .indication i]) (some n) where
  source j m data hmem := by
    have hmem : .receive j m data ∈ log := (List.mem_append.mp hmem).resolve_right (by simp)
    obtain ⟨b, hb, hpeer, hdata⟩ := h.source j m data hmem
    -- whoever received before is there already, so it is not the new one
    have hji : j ≠ i := by
      rintro rfl
      exact absurd (hnew.symm.trans hpeer) nofun
    exact ⟨b, hb, by rw [Function.update_of_ne hji, hpeer], hdata⟩
  once m := by
    rw [filter_append_of_not (by simp [Event.isReceive])]
    exact h.once m
  waiting m hm := by
    rw [filter_append_of_not (by simp [Event.isReceive])]
    exact h.waiting m hm
  delivered m b j hb hne hj := by
    rw [filter_append_of_not (by simp [Event.isReceive])]
    exact h.delivered m b j hb hne hj
  welcomed := h.welcomed_append (by simp)
  created j hj := by
    by_cases hji : j = i
    · subst hji
      exact ⟨n, a, by simp, ha, Function.update_self .., hlive⟩
    · rw [Function.update_of_ne hji] at hj ⊢
      exact h.created_append _ j hj
  indicated j := by
    rw [List.count_append, h.indicated]
    by_cases hji : j = i
    · subst hji
      simp [hnew]
    · simp [Function.update_of_ne hji, Ne.symm hji]
  before := h.before_append (by simp)

/-- The datagram is received by a transport of its source. -/
theorem receive {n i : ℕ} {a : Arrival} (h : Logged peer arrivals log (some n))
    (ha : arrivals[n]? = some a) (hpeer : peer i = some (some a.acceptor, a.addrRecv))
    (hopened : ∀ j ∈ a.opened, j = i) :
    Logged peer arrivals (log ++ [.receive i n (a.data.take bufLen)]) none where
  source j m data hmem := by
    rcases List.mem_append.mp hmem with hmem | hmem
    · exact h.source j m data hmem
    · obtain ⟨rfl, rfl, rfl⟩ := Event.receive.inj (List.mem_singleton.mp hmem)
      exact ⟨a, ha, hpeer, rfl⟩
  once m := by
    by_cases hmn : m = n
    · subst hmn
      rw [List.filter_append, h.waiting m rfl, List.nil_append]
      exact List.length_filter_le _ _
    · rw [filter_append_of_not (by simp [Event.isReceive, Ne.symm hmn])]
      exact h.once m
  waiting _ hm := absurd hm nofun
  delivered m b j hb _ hj := by
    by_cases hmn : m = n
    · subst hmn
      obtain rfl := Option.some.inj (ha.symm.trans hb)
      rw [List.filter_append, h.waiting m rfl, hopened j hj]
      simp [Event.isReceive]
    · rw [filter_append_of_not (by simp [Event.isReceive, Ne.symm hmn])]
      exact h.delivered m b j hb (fun heq => hmn (Option.some.inj heq).symm) hj
  welcomed := h.welcomed_append (by simp)
  created := h.created_append _
  indicated j := by
    rw [List.count_append, h.indicated]
    rfl
  before := by
    refine h.before_append fun j m data hmem => ?_
    obtain ⟨rfl, -, -⟩ := Event.receive.inj (List.mem_singleton.mp hmem)
    refine List.count_pos_iff.mp ?_
    rw [h.indicated, hpeer]
    exact Nat.one_pos

/-- The datagram is dropped: no transport was open. -/
theorem drop {n : ℕ} {a : Arrival} (h : Logged peer arrivals log (some n))
    (ha : arrivals[n]? = some a) (hopened : a.opened = []) : Logged peer arrivals log none where
  __ := h
  waiting _ hm := absurd hm nofun
  delivered m b j hb _ hj := by
    refine h.delivered m b j hb (fun heq => ?_) hj
    obtain rfl := Option.some.inj heq
    obtain rfl := Option.some.inj (ha.symm.trans hb)
    rw [hopened] at hj
    exact List.not_mem_nil hj

/-- The datagram of a new transport is handled. -/
theorem handled {n i : ℕ} {opened : Bool} (h : Logged peer arrivals log none)
    (hrec : opened = true → ∃ data, .receive i n data ∈ log) :
    Logged peer arrivals (log ++ [.handled i n opened]) none where
  source j m data hmem :=
    h.source j m data ((List.mem_append.mp hmem).resolve_right (by simp))
  once m := by
    rw [filter_append_of_not (by simp [Event.isReceive])]
    exact h.once m
  waiting _ hm := absurd hm nofun
  delivered m b j hb hne hj := by
    rw [filter_append_of_not (by simp [Event.isReceive])]
    exact h.delivered m b j hb hne hj
  welcomed j m hmem := by
    have hrec : ∃ data, .receive j m data ∈ log := by
      rcases List.mem_append.mp hmem with hmem | hmem
      · exact h.welcomed j m hmem
      · obtain ⟨rfl, rfl, rfl⟩ := Event.handled.inj (List.mem_singleton.mp hmem)
        exact hrec rfl
    obtain ⟨data, hrec⟩ := hrec
    exact ⟨data, List.mem_append_left _ hrec⟩
  created := h.created_append _
  indicated j := by
    rw [List.count_append, h.indicated]
    rfl
  before := h.before_append (by simp)

end Logged

/-! ### The table -/

/-- The pair under which a transport is kept. -/
def CFSTransportUdp.key (L : Listening) (t : CFSTransportUdp) : Option CFSPairInetAddr :=
  (t.acceptor.bind (L.acceptors[·]?)).map fun a => .ofAddrs t.addrSend a.addrLocol

theorem CFSTransportUdp.key_eq {L : Listening} {t : CFSTransportUdp} {acc : ℕ}
    {a : CFSAcceptorUdp} (ht : t.acceptor = some acc) (ha : L.acceptors[acc]? = some a) :
    t.key L = some (.ofAddrs t.addrSend a.addrLocol) := by
  rw [key, ht, Option.bind_some, ha, Option.map_some]

/-- Acceptors have different addresses, so the pair determines the acceptor and the peer. -/
theorem CFSTransportUdp.peer_of_key {L : Listening} {t : CFSTransportUdp} {acc : ℕ}
    {a : CFSAcceptorUdp} (ha : L.acceptors[acc]? = some a) {addr : InetAddr}
    (h : t.key L = some (.ofAddrs addr a.addrLocol)) :
    t.acceptor = some acc ∧ t.addrSend = addr := by
  obtain ⟨b, hb, hkey⟩ := Option.map_eq_some_iff.mp h
  obtain ⟨acc', hacc', hb⟩ := Option.bind_eq_some_iff.mp hb
  obtain ⟨haddr, hlocol⟩ := CFSPairInetAddr.ofAddrs_inj.mp hkey
  have hmap : ∀ {m : ℕ} {c : CFSAcceptorUdp}, L.acceptors[m]? = some c →
      (L.acceptors.map CFSAcceptorUdp.addrLocol)[m]? = some c.addrLocol := by
    intro m c hc
    rw [List.getElem?_map, hc, Option.map_some]
  obtain ⟨hlt, -⟩ := List.getElem?_eq_some_iff.mp (hmap hb)
  have hidx := (List.getElem?_inj hlt L.nodup).mp ((hmap hb).trans (hlocol ▸ (hmap ha).symm))
  exact ⟨hidx ▸ hacc', haddr⟩

/-- The pair of a transport that is not closed. -/
def label (L : Listening) (o : Option CFSTransportUdp) : Option CFSPairInetAddr :=
  o.bind fun t => t.handle.bind fun _ => t.key L

/-- What holds of each transport. -/
def Row (L : Listening) (next i : ℕ) : Option CFSTransportUdp → Bool → Prop
  | none, disconnected => disconnected = false
  | some t, disconnected =>
    i < next ∧ (t.key L).isSome ∧ (t.handle = none ↔ disconnected = true)

/-- The table is an index of the transports that are not disconnected. -/
structure Tabled (L : Listening) (w : World) : Prop where
  row : ∀ i, Row L w.next i (w.transports i) (w.disconnected i)
  index : Index (label L ∘ w.transports) w.table

section table

variable {L : Listening} {w : World} {i : ℕ} {t : CFSTransportUdp}

private theorem forall_update {f : ℕ → Option CFSTransportUdp} {g : ℕ → Bool}
    {P : ℕ → Option CFSTransportUdp → Bool → Prop} (h : ∀ j, P j (f j) (g j))
    {o : Option CFSTransportUdp} {b : Bool} (hi : P i o b) (j : ℕ) :
    P j (Function.update f i o j) (Function.update g i b j) := by
  by_cases hji : j = i
  · subst hji
    rw [Function.update_self, Function.update_self]
    exact hi
  · rw [Function.update_of_ne hji, Function.update_of_ne hji]
    exact h j

theorem Row.mono {next : ℕ} : ∀ {o : Option CFSTransportUdp} {b : Bool},
    Row L next i o b → Row L (next + 1) i o b
  | none, _, h => h
  | some _, _, h => ⟨Nat.lt_succ_of_lt h.1, h.2⟩

theorem Tabled.row_of (h : Tabled L w) (hi : w.transports i = some t) :
    i < w.next ∧ (t.key L).isSome ∧ (t.handle = none ↔ w.disconnected i = true) := by
  have hrow := h.row i
  rwa [hi] at hrow

theorem label_of_open (hopen : t.handle ≠ none) : label L (some t) = t.key L := by
  obtain ⟨fd, hfd⟩ := Option.ne_none_iff_exists'.mp hopen
  rw [label, Option.bind_some, hfd, Option.bind_some]

theorem World.undisconnected_iff {acc : ℕ} {addr : InetAddr} :
    w.undisconnected acc addr i = true ↔
      ∃ t, w.transports i = some t ∧ t.acceptor = some acc ∧ t.addrSend = addr ∧
        w.disconnected i = false := by
  rw [World.undisconnected]
  cases w.transports i with
  | none => simp
  | some t => simp [and_assoc]

/-- An undisconnected transport is in the table. -/
theorem Tabled.mem_of_undisconnected (h : Tabled L w) {acc : ℕ} {a : CFSAcceptorUdp}
    (ha : L.acceptors[acc]? = some a) {addr : InetAddr}
    (hi : w.undisconnected acc addr i = true) :
    w.table (.ofAddrs addr a.addrLocol) = some i := by
  obtain ⟨t, ht, hacc, rfl, hdis⟩ := World.undisconnected_iff.mp hi
  have hopen : t.handle ≠ none := fun hnone =>
    Bool.false_ne_true (hdis.symm.trans ((h.row_of ht).2.2.mp hnone))
  rw [h.index, Function.comp_apply, ht, label_of_open hopen, CFSTransportUdp.key_eq hacc ha]

/-- An entry of the table is the transport of its peer. -/
theorem Tabled.of_mem (h : Tabled L w) {acc : ℕ} {a : CFSAcceptorUdp}
    (ha : L.acceptors[acc]? = some a) {addr : InetAddr}
    (hi : w.table (.ofAddrs addr a.addrLocol) = some i) :
    ∃ t, w.transports i = some t ∧ t.acceptor = some acc ∧ t.addrSend = addr := by
  rw [h.index, Function.comp_apply, label] at hi
  obtain ⟨t, ht, hi⟩ := Option.bind_eq_some_iff.mp hi
  obtain ⟨-, -, hkey⟩ := Option.bind_eq_some_iff.mp hi
  exact ⟨t, ht, CFSTransportUdp.peer_of_key ha hkey⟩

theorem Tabled.unique (h : Tabled L w) {acc : ℕ} {addr : InetAddr} {j : ℕ}
    (hi : w.undisconnected acc addr i = true) (hj : w.undisconnected acc addr j = true) :
    i = j := by
  obtain ⟨t, ht, hacc, -⟩ := World.undisconnected_iff.mp hi
  have hkey := (h.row_of ht).2.1
  rw [CFSTransportUdp.key, hacc, Option.isSome_map, Option.bind_some] at hkey
  obtain ⟨a, ha⟩ := Option.isSome_iff_exists.mp hkey
  exact Option.some.inj
    ((h.mem_of_undisconnected ha hi).symm.trans (h.mem_of_undisconnected ha hj))

/-- Numbers are not used before they are given. -/
theorem Tabled.transports_next (h : Tabled L w) : w.transports w.next = none := by
  by_contra hsome
  obtain ⟨t, ht⟩ := Option.ne_none_iff_exists'.mp hsome
  exact Nat.lt_irrefl _ (h.row_of ht).1

/-- The sink of a transport changes. -/
theorem Tabled.setSink (h : Tabled L w) (hi : w.transports i = some t) (sink : Option ℕ) :
    Tabled L { w with transports := Function.update w.transports i (some { t with sink }) } := by
  constructor
  · have hrow := h.row_of hi
    have hsink : Row L w.next i (some { t with sink }) (w.disconnected i) := hrow
    simpa only [Function.update_eq_self] using forall_update h.row hsink
  · have hlabel : label L (some { t with sink }) = (label L ∘ w.transports) i := by
      rw [Function.comp_apply, hi]
      rfl
    change Index (label L ∘ Function.update _ _ _) _
    rw [Function.comp_update, hlabel, Function.update_eq_self]
    exact h.index

/-- An open transport is closed and taken out of the table. -/
theorem Tabled.close (h : Tabled L w) {k : CFSPairInetAddr} (hi : w.transports i = some t)
    (hopen : t.handle ≠ none) (hkey : t.key L = some k) :
    Tabled L { w with
      transports := Function.update w.transports i (some { t with handle := none })
      table := Function.update w.table k none
      disconnected := Function.update w.disconnected i true } := by
  constructor
  · exact forall_update h.row ⟨(h.row_of hi).1, (h.row_of hi).2.1, iff_of_true rfl rfl⟩
  · have hlabel : (label L ∘ w.transports) i = some k := by
      rw [Function.comp_apply, hi, label_of_open hopen, hkey]
    change Index (label L ∘ Function.update _ _ _) _
    rw [Function.comp_update]
    exact h.index.remove hlabel

/-- A transport is made for a pair that is not in the table. -/
theorem Tabled.insert (h : Tabled L w) {k : CFSPairInetAddr} (hk : w.table k = none)
    (hopen : t.handle ≠ none) (hkey : t.key L = some k) :
    Tabled L { w with
      transports := Function.update w.transports w.next (some t)
      next := w.next + 1
      table := Function.update w.table k (some w.next) } := by
  have hnew : w.transports w.next = none := h.transports_next
  constructor
  · have hdis : w.disconnected w.next = false := by
      have hrow := h.row w.next
      rwa [hnew] at hrow
    have hrow : Row L (w.next + 1) w.next (some t) (w.disconnected w.next) := by
      refine ⟨Nat.lt_succ_self _, Option.isSome_iff_exists.mpr ⟨k, hkey⟩, iff_of_false hopen ?_⟩
      rw [hdis]
      exact Bool.false_ne_true
    simpa only [Function.update_eq_self] using forall_update (fun j => (h.row j).mono) hrow
  · change Index (label L ∘ Function.update _ _ _) _
    rw [Function.comp_update, label_of_open hopen, hkey]
    refine h.index.insert ?_ hk
    rw [Function.comp_apply, hnew]
    rfl

end table

/-! ### Runs -/

/-- The datagram that is in `szBuf`. -/
def Pc.pending : Pc → Option ℕ
  | .indication _ n _ => some n
  | _ => none

structure Inv (L : Listening) (w : World) : Prop where
  tabled : Tabled L w
  logged : Logged w.peer w.arrivals w.log w.pc.pending
  /-- the datagram in `szBuf` waits for the transport that was made for it -/
  announced : ∀ i n data, w.pc = .indication i n data → ∃ a, w.arrivals[n]? = some a ∧
    w.peer i = some (some a.acceptor, a.addrRecv) ∧ data = a.data.take bufLen ∧ a.opened = []

section runs

variable {L : Listening} {w w' : World}

theorem inv_init (L : Listening) : Inv L init where
  tabled := ⟨fun _ => rfl, index_none⟩
  logged := Logged.nil
  announced _ _ _ h := absurd h nofun

theorem World.peer_eq_some {i acc : ℕ} {addr : InetAddr} :
    w.peer i = some (some acc, addr) ↔
      ∃ t, w.transports i = some t ∧ t.acceptor = some acc ∧ t.addrSend = addr := by
  rw [World.peer, Function.comp_apply, Option.map_eq_some_iff]
  simp only [Prod.mk.injEq]

/-- Closing a transport and changing its sink do not change what it was made for. -/
theorem World.peer_update {i : ℕ} {t : CFSTransportUdp} (hi : w.transports i = some t)
    (handle sink : Option ℕ) :
    Option.map (fun t => (t.acceptor, t.addrSend)) ∘
      Function.update w.transports i (some { t with handle, sink }) = w.peer := by
  have hsame : w.peer i = some (t.acceptor, t.addrSend) := by
    rw [World.peer, Function.comp_apply, hi, Option.map_some]
  rw [Function.comp_update, Option.map_some, ← hsame]
  exact Function.update_eq_self i w.peer

/-- What the user does to the transports leaves the log alone. -/
theorem Inv.frame (h : Inv L w) (htabled : Tabled L w') (hpeer : w'.peer = w.peer)
    (harrivals : w'.arrivals = w.arrivals) (hlog : w'.log = w.log) (hpc : w'.pc = w.pc) :
    Inv L w' := by
  refine ⟨htabled, ?_, ?_⟩
  · rw [hpeer, harrivals, hlog, hpc]
    exact h.logged
  · rw [hpeer, harrivals, hpc]
    exact h.announced

/-- `OnReceiveCallback` on a transport of the source of the pending datagram. -/
theorem inv_onReceiveCallback {i n : ℕ} {a : Arrival} (htabled : Tabled L w)
    (hlogged : Logged w.peer w.arrivals w.log (some n)) (ha : w.arrivals[n]? = some a)
    (hpeer : w.peer i = some (some a.acceptor, a.addrRecv))
    (hopened : ∀ j ∈ a.opened, j = i ∧ w.opened j = true) :
    Inv L (w.onReceiveCallback i n (a.data.take bufLen)) := by
  rw [World.onReceiveCallback]
  split
  · exact ⟨⟨htabled.row, htabled.index⟩, hlogged.receive ha hpeer fun j hj => (hopened j hj).1,
      fun _ _ _ h => absurd h nofun⟩
  · next hclosed =>
    refine ⟨⟨htabled.row, htabled.index⟩, hlogged.drop ha ?_, fun _ _ _ h => absurd h nofun⟩
    refine List.eq_nil_iff_forall_not_mem.mpr fun j hj => hclosed ?_
    exact (hopened j hj).1 ▸ (hopened j hj).2

theorem World.pending_onReceiveCallback (i n : ℕ) (data : Bytes) :
    (w.onReceiveCallback i n data).pc.pending = none := by
  rw [World.onReceiveCallback]
  split <;> rfl

theorem Inv.handled (h : Inv L w) (hpc : w.pc.pending = none) {i n : ℕ} {opened : Bool}
    (hrec : opened = true → ∃ data, .receive i n data ∈ w.log) :
    Inv L (w.note (.handled i n opened)) := by
  have hlogged := h.logged
  rw [hpc] at hlogged
  refine ⟨⟨h.tabled.row, h.tabled.index⟩, ?_, h.announced⟩
  change Logged w.peer w.arrivals (w.log ++ [.handled i n opened]) w.pc.pending
  rw [hpc]
  exact hlogged.handled hrec

theorem World.mem_live {acc i : ℕ} {addr : InetAddr} {data : Bytes}
    (hi : i ∈ (w.arrival acc addr data).live) : w.undisconnected acc addr i = true :=
  (List.mem_filter.mp hi).2

theorem World.mem_opened {acc i : ℕ} {addr : InetAddr} {data : Bytes}
    (hi : i ∈ (w.arrival acc addr data).opened) :
    w.undisconnected acc addr i = true ∧ w.opened i = true :=
  have hi := List.mem_filter.mp hi
  ⟨(List.mem_filter.mp hi.1).2, hi.2⟩

theorem Inv.recv (h : Inv L w) {acc : ℕ} {addrRecv : InetAddr} {data : Bytes}
    (hs : step L w (.recv acc addrRecv data) = some w') : Inv L w' := by
  simp only [step] at hs
  split at hs
  · next a hpc ha =>
    have hlogged := h.logged
    rw [hpc] at hlogged
    have harrive := hlogged.arrive (w.arrival acc addrRecv data)
    have hlast : (w.arrivals ++ [w.arrival acc addrRecv data])[w.arrivals.length]? =
        some (w.arrival acc addrRecv data) := List.getElem?_concat_length
    split at hs
    · next i htable =>
      -- the entry of the table is the only transport of the source that can be open
      obtain rfl := Option.some.inj hs
      refine inv_onReceiveCallback (a := w.arrival acc addrRecv data)
        ⟨h.tabled.row, h.tabled.index⟩ harrive hlast
        (World.peer_eq_some.mpr (h.tabled.of_mem ha htable)) fun j hj => ?_
      obtain ⟨hj, hopened⟩ := World.mem_opened hj
      have hentry := h.tabled.mem_of_undisconnected ha hj
      exact ⟨Option.some.inj (hentry.symm.trans htable), hopened⟩
    · next htable =>
      obtain rfl := Option.some.inj hs
      -- a transport that is not disconnected would be in the table
      have hlive : (w.arrival acc addrRecv data).live = [] := by
        refine List.eq_nil_iff_forall_not_mem.mpr fun j hj => ?_
        have hentry := h.tabled.mem_of_undisconnected ha (World.mem_live hj)
        exact absurd (htable.symm.trans hentry) nofun
      have hnew : w.peer w.next = none := by
        rw [World.peer, Function.comp_apply, h.tabled.transports_next, Option.map_none]
      have htabled := h.tabled.insert htable
        (t := ⟨some a.handle, some acc, addrRecv, none⟩) nofun (CFSTransportUdp.key_eq rfl ha)
      have hcreate := harrive.create hlast hlive hnew
      have hpeer : Option.map (fun t => (t.acceptor, t.addrSend)) ∘ Function.update w.transports
          w.next (some ⟨some a.handle, some acc, addrRecv, none⟩) =
          Function.update w.peer w.next (some (some acc, addrRecv)) := Function.comp_update ..
      refine ⟨⟨htabled.row, htabled.index⟩, ?_, fun i n szBuf hpc' => ?_⟩
      · rw [World.peer, hpeer]
        exact hcreate
      · obtain ⟨rfl, rfl, rfl⟩ := Pc.indication.inj hpc'
        refine ⟨_, hlast, ?_, rfl, ?_⟩
        · rw [World.peer, hpeer]
          exact Function.update_self ..
        · exact (congrArg (List.filter w.opened) hlive).trans List.filter_nil
  · exact absurd hs nofun

/-- `Disconnect` of a transport that is disconnected already has no effect on the table. -/
theorem Inv.disconnect (h : Inv L w) {i : ℕ} {t : CFSTransportUdp}
    (hi : w.transports i = some t) : Inv L ((w.close_t L i t).clearSink i) := by
  cases hhandle : t.handle with
  | none =>
    have hclose : w.close_t L i t = w := by rw [World.close_t, hhandle]
    have hdis : w.disconnected i = true := (h.tabled.row_of hi).2.2.mp hhandle
    have hclear : w.clearSink i =
        { w with transports := Function.update w.transports i (some { t with sink := none }) } := by
      rw [World.clearSink, hi, Option.map_some, ← hdis, Function.update_eq_self]
    rw [hclose, hclear]
    exact h.frame (h.tabled.setSink hi none) (World.peer_update hi t.handle none) rfl rfl rfl
  | some fd =>
    have hopen : t.handle ≠ none := hhandle ▸ nofun
    obtain ⟨k, hkey⟩ := Option.isSome_iff_exists.mp (h.tabled.row_of hi).2.1
    obtain ⟨a, ha, rfl⟩ := Option.map_eq_some_iff.mp hkey
    have hclose : (w.close_t L i t).clearSink i =
        { w with
          transports := Function.update (Function.update w.transports i
            (some { t with handle := none })) i (some { t with handle := none, sink := none })
          table := Function.update w.table (.ofAddrs t.addrSend a.addrLocol) none
          disconnected := Function.update w.disconnected i true } := by
      rw [World.close_t, hhandle, ha, World.clearSink]
      simp only [Function.update_self, Option.map_some, World.removeTransport]
    rw [hclose]
    refine h.frame ((h.tabled.close hi hopen hkey).setSink (Function.update_self ..) none) ?_
      rfl rfl rfl
    rw [World.peer, Function.update_idem]
    exact World.peer_update hi none none

/-- **Every step keeps the table and the log.** -/
theorem Inv.step (h : Inv L w) {act : Action} (hs : step L w act = some w') : Inv L w' := by
  cases act with
  | recv acc addrRecv data => exact h.recv hs
  | indicated =>
    simp only [Udp.step] at hs
    split at hs
    · next i n szBuf hpc =>
      obtain rfl := Option.some.inj hs
      obtain ⟨a, ha, hpeer, rfl, hopened⟩ := h.announced i n szBuf hpc
      have hlogged := h.logged
      rw [hpc] at hlogged
      have hinv : Inv L (w.onReceiveCallback i n (a.data.take bufLen)) := by
        refine inv_onReceiveCallback h.tabled hlogged ha hpeer fun j hj => ?_
        rw [hopened] at hj
        exact absurd hj List.not_mem_nil
      -- the sink may have been set in `OnConnectIndication`: then the datagram reaches it
      refine hinv.handled (World.pending_onReceiveCallback ..) fun hopen => ?_
      refine ⟨a.data.take bufLen, ?_⟩
      rw [World.onReceiveCallback, if_pos (Bool.and_eq_true_iff.mp hopen).1]
      exact List.mem_append_right _ (List.mem_singleton_self _)
    · exact absurd hs nofun
  | received =>
    simp only [Udp.step] at hs
    split at hs
    · next hpc =>
      obtain rfl := Option.some.inj hs
      have hlogged := h.logged
      rw [hpc] at hlogged
      exact ⟨⟨h.tabled.row, h.tabled.index⟩, hlogged, fun _ _ _ h => absurd h nofun⟩
    · exact absurd hs nofun
  | openWithSink i aSink =>
    simp only [Udp.step] at hs
    split at hs
    · next t hi =>
      obtain rfl := Option.some.inj hs
      exact h.frame (h.tabled.setSink hi aSink) (World.peer_update hi t.handle aSink) rfl rfl rfl
    · exact absurd hs nofun
  | disconnect i =>
    simp only [Udp.step] at hs
    split at hs
    · next t hi =>
      obtain rfl := Option.some.inj hs
      exact h.disconnect hi
    · exact absurd hs nofun
  | destruct i =>
    simp only [Udp.step] at hs
    split at hs
    · next t _ hi =>
      split at hs
      · next a ha =>
        split at hs
        · exact absurd hs nofun
        · next htable =>
          -- a transport that is not in the table is closed, so `Close_t` does nothing
          have hclosed : t.handle = none := by
            by_contra hopen
            refine htable ((h.tabled.index _ i).mpr ?_)
            rw [Function.comp_apply, hi, label_of_open hopen, CFSTransportUdp.key, ha,
              Option.map_some]
          obtain rfl := Option.some.inj hs
          rw [World.close_t, hclosed]
          exact h
      · exact absurd hs nofun
    · exact absurd hs nofun

theorem Inv.contract (h : Inv L w) : SessionsOk w where
  unique _ _ _ _ hi hj := h.tabled.unique hi hj
  source i n data hmem := by
    obtain ⟨a, ha, hpeer, hdata⟩ := h.logged.source i n data hmem
    exact ⟨a, ha, World.peer_eq_some.mp hpeer, hdata⟩
  once := h.logged.once
  delivered n a i ha hi := by
    refine h.logged.delivered n a i ha (fun hpending => ?_) hi
    -- a datagram waits in `szBuf` only when there was no transport for its source
    cases hpc : w.pc with
    | indication j m szBuf =>
      rw [hpc] at hpending
      obtain rfl := Option.some.inj hpending
      obtain ⟨b, hb, -, -, hopened⟩ := h.announced j m szBuf hpc
      obtain rfl := Option.some.inj (ha.symm.trans hb)
      rw [hopened] at hi
      exact List.not_mem_nil hi
    | idle | receive =>
      rw [hpc] at hpending
      exact absurd hpending nofun
  welcomed := h.logged.welcomed
  created i hi := by
    obtain ⟨n, a, hmem, ha, hpeer, hlive⟩ := h.logged.created i (Option.isSome_map.trans hi)
    exact ⟨n, a, hmem, ha, World.peer_eq_some.mp hpeer, hlive⟩
  indicated i hi := by
    have hpeer : (w.peer i).isSome := Option.isSome_map.trans hi
    rw [h.logged.indicated, if_pos hpeer]
  before := h.logged.before

end runs

/-- **Sessions of the UDP acceptor.** In every state of every run, datagrams are received by the
transports of their sources, and every source has at most one undisconnected transport. -/
theorem sessionsOk (L : Listening) {w : World} (h : Reachable (step L) init w) : SessionsOk w :=
  (h.induct (I := Inv L) (inv_init L) fun _ _ _ hi _ hs => hi.step hs).contract

/-- One acceptor, on port 53. -/
def port53 : Listening := ⟨[⟨3, ⟨0, 53⟩⟩], by decide⟩

/-- The peer is announced and opened in the callback; its second datagram is received in a callback
that disconnects it, its third one finds no transport and makes a new one. -/
def session : List Action :=
  [.recv 0 ⟨1, 7⟩ [1], .openWithSink 0 9, .indicated, .received,
    .recv 0 ⟨1, 7⟩ [2], .disconnect 0, .received, .destruct 0, .recv 0 ⟨1, 7⟩ [3], .indicated]

theorem sessionsOk_session :
    ∃ w, exec (step port53) init session = some w ∧
      w.log = [.create 0 0, .indication 0, .receive 0 0 [1], .handled 0 0 true, .receive 0 1 [2],
        .create 1 2, .indication 1, .handled 1 2 false] ∧ SessionsOk w :=
  ⟨_, rfl, rfl, sessionsOk port53 (reachable_of_exec session rfl)⟩

end VosStack.Udp
