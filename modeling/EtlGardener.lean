import EtlGardener.Date
import EtlGardener.Sql
import EtlGardener.Dedup
import EtlGardener.Queryer
import EtlGardener.Warehouse
import EtlGardener.Frame
import EtlGardener.Policies
import EtlGardener.Promotion
import EtlGardener.Interleaving
import EtlGardener.Days
