import Kasli.Tools.Systemd

/-! The network summary tool (`tools/network_tool.cpp`): its rows, its body and its call.
What the provider reports is a parameter of the call. -/

namespace Kasli.Tools.Network

open Core

def maxAddressesPerFamily : ℕ := 8
def maxBodyBytes : ℕ := 64 * 1024

structure NetworkInterfaceRow where
  name : Bytes
  operState : Bytes
  type : Bytes
  mtu : Bytes
  carrier : Bytes
  macAddress : Bytes
  ipv4Addresses : List Bytes
  ipv6Addresses : List Bytes
  rxBytes : ℕ
  txBytes : ℕ
  defaultRoute : Bool
  source : Bytes
  deriving DecidableEq

structure NetworkSummaryResult where
  ok : Bool
  error : Bytes
  rows : List NetworkInterfaceRow
  hasMoreRows : Bool

/-- At most eight addresses are listed. -/
def formatNetworkAddressList (addresses : List Bytes) : Bytes :=
  if addresses = [] then ascii "none"
  else
    [chr ','].intercalate (addresses.take maxAddressesPerFamily) ++
      if addresses.length > maxAddressesPerFamily then ascii ",truncated" else []

def formatNetworkRow (row : NetworkInterfaceRow) : Bytes :=
  ascii "name=" ++ redactLikelySecret row.name ++
    ascii " oper_state=" ++ redactLikelySecret row.operState ++
    ascii " type=" ++ redactLikelySecret row.type ++
    ascii " mtu=" ++ redactLikelySecret row.mtu ++
    ascii " carrier=" ++ redactLikelySecret row.carrier ++
    ascii " mac=" ++ redactLikelySecret row.macAddress ++
    ascii " ipv4=" ++ redactLikelySecret (formatNetworkAddressList row.ipv4Addresses) ++
    ascii " ipv6=" ++ redactLikelySecret (formatNetworkAddressList row.ipv6Addresses) ++
    ascii " rx_bytes=" ++ decimal row.rxBytes ++
    ascii " tx_bytes=" ++ decimal row.txBytes ++
    ascii " default_route=" ++ (if row.defaultRoute then ascii "true" else ascii "false") ++
    ascii " source=" ++ redactLikelySecret row.source ++ ascii "\n"

def networkSummaryHeader (rows : ℕ) : List Bytes :=
  countHeader (ascii "network_interfaces_count=") (ascii "no_network_interfaces=true\n") rows

def formatNetworkSummaryBody (rows : List NetworkInterfaceRow)
    (hasMoreRows : Bool) : Option Bytes :=
  Body.formatRows maxBodyBytes (networkSummaryHeader rows.length)
    (rows.map formatNetworkRow) hasMoreRows

/-- `NetworkSummaryTool::call` -/
def networkSummaryCall (result : NetworkSummaryResult) (timestamp : Bytes) (request : ToolRequest) :
    Option ToolResponse :=
  if !result.ok then
    return errorResponse request (if result.error = [] then ascii "network summary provider failed"
      else result.error)
  else do
    let body ← formatNetworkSummaryBody result.rows result.hasMoreRows
    return okResponse request (ascii "network.summary") (ascii "network interfaces listed")
      (ascii "bounded local network interface summary") body timestamp

end Kasli.Tools.Network
